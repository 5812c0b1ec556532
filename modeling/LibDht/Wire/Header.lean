import LibDht.Wire.Codec
import Mathlib.Tactic.Ring

/-!
# Message headers

A message starts with a byte for its type and the length of its content, as eight
hexadecimal digits. The sender formats it with `%c%08X`; the receiver reads the digits
with `strtoul`.
-/

/-! ### Hexadecimal numbers -/

/-- The digit that `%X` prints. -/
def hexDigit (d : ℕ) : UInt8 :=
  if d < 10 then UInt8.ofNat (48 + d) else UInt8.ofNat (55 + d)

/-- The `n` low digits of a number, most significant first. -/
def hexDigits : ℕ → ℕ → List UInt8
  | 0, _ => []
  | n + 1, x => hexDigits n (x / 16) ++ [hexDigit (x % 16)]

/-- The value of a hexadecimal digit, in either case. -/
def hexValue (b : UInt8) : Option ℕ :=
  if 48 ≤ b ∧ b ≤ 57 then some (b.toNat - 48)
  else if 65 ≤ b ∧ b ≤ 70 then some (b.toNat - 55)
  else if 97 ≤ b ∧ b ≤ 102 then some (b.toNat - 87)
  else none

/-- The digits up to the first byte that is none, read on to `acc`. -/
def hexPrefix (acc : ℕ) : List UInt8 → ℕ
  | [] => acc
  | b :: bs =>
    match hexValue b with
    | some d => hexPrefix (16 * acc + d) bs
    | none => acc

/-- A byte that `strtoul` skips at the start. -/
def isSpace (b : UInt8) : Bool :=
  b == 32 || (9 ≤ b && b ≤ 13)

/-- `strtoul` in base 16: spaces, a sign, `0x`, and digits. A negative number is taken
modulo `2 ^ 64`. -/
def strtoul16 (l : List UInt8) : ℕ :=
  let l := l.dropWhile isSpace
  let negative := l.head? == some 45
  let l := if negative || l.head? == some 43 then l.tail else l
  let number :=
    match l with
    | 48 :: x :: d :: rest =>
      if (x == 120 || x == 88) && (hexValue d).isSome then d :: rest else l
    | _ => l
  let n := hexPrefix 0 number
  if negative then (2 ^ 64 - n) % 2 ^ 64 else n

@[simp]
theorem length_hexDigits (n x : ℕ) :
  (hexDigits n x).length = n
  := by
  induction n generalizing x with
  | zero => rfl
  | succ n ih => simp [hexDigits, ih]

/-- A printed digit is read as what it is. -/
theorem hexValue_hexDigit :
  ∀ d < 16, hexValue (hexDigit d) = some d
  := by decide

theorem mem_hexDigits {n x : ℕ} {b : UInt8} (h : b ∈ hexDigits n x) :
  ∃ d < 16, b = hexDigit d
  := by
  induction n generalizing x with
  | zero => cases h
  | succ n ih =>
    rcases List.mem_append.mp h with h | h
    · apply ih h
    · use x % 16, Nat.mod_lt x (by decide)
      apply List.mem_singleton.mp h

theorem hexPrefix_append {l : List UInt8} (h : ∀ b ∈ l, (hexValue b).isSome) (acc : ℕ)
    (l' : List UInt8) :
  hexPrefix acc (l ++ l') = hexPrefix (hexPrefix acc l) l'
  := by
  induction l generalizing acc with
  | nil => rfl
  | cons b bs ih =>
    obtain ⟨d, hd⟩ := Option.isSome_iff_exists.mp (h b List.mem_cons_self)
    simp only [List.cons_append, hexPrefix, hd]
    apply ih
    intro b' hb'
    apply h b' (List.mem_cons_of_mem b hb')

theorem isSome_of_mem_hexDigits {n x : ℕ} :
  ∀ b ∈ hexDigits n x, (hexValue b).isSome
  := by
  intro b hb
  obtain ⟨d, hd, rfl⟩ := mem_hexDigits hb
  rw [hexValue_hexDigit d hd]
  rfl

theorem hexPrefix_hexDigits {n x : ℕ} (h : x < 16 ^ n) (acc : ℕ) :
  hexPrefix acc (hexDigits n x) = acc * 16 ^ n + x
  := by
  induction n generalizing x with
  | zero =>
    simp only [pow_zero] at h
    simp only [hexDigits, hexPrefix]
    omega
  | succ n ih =>
    have hdiv : x / 16 < 16 ^ n := by
      rw [pow_succ] at h
      omega
    have hmod := Nat.mod_lt x (show 16 > 0 by decide)
    rw [hexDigits, hexPrefix_append isSome_of_mem_hexDigits, ih hdiv]
    simp only [hexPrefix, hexValue_hexDigit _ hmod, pow_succ]
    have := Nat.div_add_mod x 16
    calc 16 * (acc * 16 ^ n + x / 16) + x % 16
        = acc * (16 ^ n * 16) + (16 * (x / 16) + x % 16) := by ring
      _ = acc * (16 ^ n * 16) + x := by rw [this]

/-- A hexadecimal digit is none of the other bytes that `strtoul` looks for. -/
theorem hexValue_spec {b : UInt8} (h : (hexValue b).isSome) :
  isSpace b = false ∧ b ≠ 45 ∧ b ≠ 43 ∧ b ≠ 120 ∧ b ≠ 88
  := by
  have hrange : 48 ≤ b.toNat ∧ b.toNat ≤ 57 ∨ 65 ≤ b.toNat ∧ b.toNat ≤ 70
      ∨ 97 ≤ b.toNat ∧ b.toNat ≤ 102 := by
    unfold hexValue at h
    simp only [UInt8.le_iff_toNat_le] at h
    split_ifs at h with h₁ h₂ h₃
    · exact Or.inl h₁
    · exact Or.inr (Or.inl h₂)
    · exact Or.inr (Or.inr h₃)
    · cases h
  have hne : ∀ c : UInt8, b.toNat ≠ c.toNat → b ≠ c := fun c hc heq => hc (congrArg UInt8.toNat heq)
  refine ⟨?_, hne 45 ?_, hne 43 ?_, hne 120 ?_, hne 88 ?_⟩
  · have hspace : b ≠ 32 := hne 32 (by simp; omega)
    simp only [isSpace, UInt8.le_iff_toNat_le, Bool.or_eq_false_iff, beq_eq_false_iff_ne,
      Bool.and_eq_false_iff, decide_eq_false_iff_not]
    exact ⟨hspace, Or.inr (by simp; omega)⟩
  all_goals simp; omega

/-- `strtoul` reads digits as the number they spell. -/
theorem strtoul16_of_digits {l : List UInt8} (h : ∀ b ∈ l, (hexValue b).isSome) :
  strtoul16 l = hexPrefix 0 l
  := by
  have hspace : l.dropWhile isSpace = l := by
    cases l with
    | nil => rfl
    | cons b bs => simp [(hexValue_spec (h b List.mem_cons_self)).1]
  have hsign : ∀ s, s = 45 ∨ s = 43 → ¬ (l.head? == some s) = true := by
    intro s hs hhead
    have hb := hexValue_spec (h s (List.mem_of_mem_head? (by simpa using hhead)))
    rcases hs with hs | hs
    · exact hb.2.1 hs
    · exact hb.2.2.1 hs
  rw [strtoul16]
  simp only [hspace, hsign 45 (Or.inl rfl), hsign 43 (Or.inr rfl), Bool.or_false]
  simp only [Bool.false_eq_true, if_false]
  split
  · rename_i y d rest
    have hx := hexValue_spec (h y (by simp))
    rw [if_neg]
    simp [hx.2.2.2.1, hx.2.2.2.2]
  · rfl

/-- `strtoul` reads what `%08X` prints. -/
theorem strtoul16_hexDigits {n x : ℕ} (h : x < 16 ^ n) :
  strtoul16 (hexDigits n x) = x
  := by
  rw [strtoul16_of_digits isSome_of_mem_hexDigits, hexPrefix_hexDigits h, Nat.zero_mul,
    Nat.zero_add]

/-! ### Headers -/

/-- What `%c%08X` prints. -/
def messageHeader (type : UInt8) (len : UInt32) : List UInt8 :=
  type :: hexDigits 8 len.toNat

/-- The length of a header. -/
abbrev headerBytes : ℕ := 9

@[simp]
theorem length_messageHeader (type : UInt8) (len : UInt32) :
  (messageHeader type len).length = headerBytes
  := by
  simp [messageHeader]

/-- The type and the length in a header, and the rest of the buffer. In an empty buffer the
type is what was in its place before. -/
def nodeParseMessageHeader (old : UInt8) (buf : List UInt8) : (UInt8 × UInt32) × List UInt8 :=
  ((buf.headD old, UInt32.ofNat (strtoul16 ((buf.drop 1).take 8))), buf.drop headerBytes)

/-- A header that is in the buffer whole is read as it was written. -/
theorem nodeParseMessageHeader_append (old type : UInt8) (len : UInt32) (body : List UInt8) :
  nodeParseMessageHeader old (messageHeader type len ++ body) = ((type, len), body)
  := by
  have hlen : len.toNat < 16 ^ 8 := len.toNat_lt
  have htake : (hexDigits 8 len.toNat ++ body).take 8 = hexDigits 8 len.toNat :=
    List.take_left' (length_hexDigits 8 len.toNat)
  have hdrop : (messageHeader type len ++ body).drop headerBytes = body :=
    List.drop_left' (length_messageHeader type len)
  have hread : ((messageHeader type len ++ body).drop 1).take 8 = hexDigits 8 len.toNat := htake
  rw [nodeParseMessageHeader, hdrop, hread, strtoul16_hexDigits hlen]
  simp [messageHeader]

/-- What has arrived of a message when its header is there is the header, and a part of the
body. -/
theorem exists_part_of_append {type : UInt8} {len : UInt32} {body buf rest : List UInt8}
    (h : buf ++ rest = messageHeader type len ++ body) (hlen : headerBytes ≤ buf.length) :
  ∃ part, buf = messageHeader type len ++ part ∧ part ++ rest = body
  := by
  rcases List.append_eq_append_iff.mp h with ⟨part, hheader, hbody⟩ | ⟨part, hbuf, hbody⟩
  · have hlen' := congrArg List.length hheader
    rw [length_messageHeader, List.length_append] at hlen'
    have hnil : part = [] := by
      apply List.length_eq_zero_iff.mp
      omega
    subst hnil
    exact ⟨[], by simpa using hheader.symm, by simpa using hbody⟩
  · exact ⟨part, hbuf, hbody.symm⟩
