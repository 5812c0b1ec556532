import LibDht.Wire.Header

/-!
# The grammar of headers

A header is a type byte and eight hexadecimal digits. The parser takes nine bytes off the
buffer, as far as they are there, and leaves the digits to `strtoul`, which reads any
string: it reports an error only when bytes cannot be removed, which does not happen.
-/

/-- The number of digits in a header: `LEN_STR_BYTES`. -/
abbrev lenStrBytes : ℕ := 8

/-- `evbuffer_remove`: up to `n` bytes are removed, as many as there are. The result is their
number, which is negative only when libevent fails. -/
def evbufferRemove (buf : List UInt8) (n : ℕ) : ℤ × List UInt8 × List UInt8 :=
  ((buf.take n).length, buf.take n, buf.drop n)

/-- The parser of a header with its result, the type and the length, which are in the place of
`old`, and the rest of the buffer. -/
def nodeParseMessageHeaderRc (old : UInt8 × UInt32) (buf : List UInt8) :
    ℤ × (UInt8 × UInt32) × List UInt8 :=
  let (rc, byte, buf) := evbufferRemove buf 1
  let type := byte.headD old.1
  if rc = -1 then (-1, (type, old.2), buf)
  else
    let (rc, digits, buf) := evbufferRemove buf lenStrBytes
    if rc = -1 then (-1, (type, old.2), buf)
    else (0, (type, UInt32.ofNat (strtoul16 digits)), buf)

/-- The number that hexadecimal digits spell. -/
def hexNumber (digits : List UInt8) : ℕ :=
  digits.foldl (fun acc d => 16 * acc + (hexValue d).getD 0) 0

/-- The buffer begins with the header of a message with the type and the length. -/
def BeginsWithHeader (buf : List UInt8) (type : UInt8) (len : ℕ) : Prop :=
  ∃ digits body, buf = type :: (digits ++ body) ∧ digits.length = lenStrBytes
    ∧ (∀ d ∈ digits, (hexValue d).isSome) ∧ hexNumber digits = len

/-- The parser succeeds on every buffer. -/
theorem nodeParseMessageHeaderRc_eq (old : UInt8 × UInt32) (buf : List UInt8) :
  nodeParseMessageHeaderRc old buf = (0, nodeParseMessageHeader old.1 buf)
  := by
  have hnonneg : ∀ n : ℕ, ¬ (n : ℤ) = -1 := by
    intro n
    omega
  simp only [nodeParseMessageHeaderRc, evbufferRemove, hnonneg, if_false, nodeParseMessageHeader,
    List.drop_drop]
  cases buf <;> rfl

theorem hexPrefix_of_digits {l : List UInt8} (h : ∀ b ∈ l, (hexValue b).isSome) (acc : ℕ) :
  hexPrefix acc l = l.foldl (fun acc d => 16 * acc + (hexValue d).getD 0) acc
  := by
  induction l generalizing acc with
  | nil => rfl
  | cons b bs ih =>
    obtain ⟨d, hd⟩ := Option.isSome_iff_exists.mp (h b List.mem_cons_self)
    simp only [hexPrefix, hd, List.foldl_cons, Option.getD_some]
    exact ih (fun b' hb' => h b' (List.mem_cons_of_mem b hb')) _

theorem hexValue_lt {b : UInt8} {d : ℕ} (h : hexValue b = some d) :
  d < 16
  := by
  unfold hexValue at h
  simp only [UInt8.le_iff_toNat_le] at h
  split_ifs at h with h₁ h₂ h₃
  · simp at h h₁
    omega
  · simp at h h₂
    omega
  · simp at h h₃
    omega

theorem foldl_hexValue_lt (l : List UInt8) {n acc : ℕ} (hacc : acc < 16 ^ n) :
  l.foldl (fun acc d => 16 * acc + (hexValue d).getD 0) acc < 16 ^ (n + l.length)
  := by
  induction l generalizing n acc with
  | nil => simpa using hacc
  | cons b bs ih =>
    have hd : (hexValue b).getD 0 < 16 := by
      cases hb : hexValue b with
      | none => simp
      | some d => simpa using hexValue_lt hb
    have hstep : 16 * acc + (hexValue b).getD 0 < 16 ^ (n + 1) := by
      rw [pow_succ]
      omega
    rw [List.foldl_cons, List.length_cons, show n + (bs.length + 1) = n + 1 + bs.length by omega]
    exact ih hstep

/-- A header is read as the type and the length that it spells. -/
theorem BeginsWithHeader.parse {buf : List UInt8} {type : UInt8} {len : ℕ}
    (h : BeginsWithHeader buf type len) (old : UInt8) :
  (nodeParseMessageHeader old buf).1.1 = type
    ∧ (nodeParseMessageHeader old buf).1.2.toNat = len
  := by
  obtain ⟨digits, body, rfl, hlen, hdigits, rfl⟩ := h
  have htake : (digits ++ body).take 8 = digits := List.take_left' hlen
  have hlt : hexNumber digits < UInt32.size := by
    have hfold := foldl_hexValue_lt digits (show 0 < 16 ^ 0 by decide)
    rw [hlen] at hfold
    exact hfold
  use rfl
  simp only [nodeParseMessageHeader, List.drop_one, List.tail_cons, htake,
    strtoul16_of_digits hdigits, hexPrefix_of_digits hdigits]
  exact UInt32.toNat_ofNat_of_lt' hlt
