import Mathlib.Data.List.Basic
import Mathlib.Data.UInt

/-!
# Bytes of a fixed width

A `Codec` writes the values of a type as lists of bytes of one length, and every list of
that length is one of a value. The codecs here are those of machine words, least
significant byte first, as they lie in the memory of the sender and of the receiver.

A buffer may hold fewer bytes than a value takes. `Codec.fill` copies what there is over
the bytes that were in the place of the value before. The value read is the one written
when all its bytes are there, and when they are not, it depends on what was there before.
-/

/-- The `n` low bytes of a number, least significant first. -/
def littleEndian : ℕ → ℕ → List UInt8
  | 0, _ => []
  | n + 1, x => UInt8.ofNat x :: littleEndian n (x / 256)

/-- The number with the given bytes, least significant first. -/
def ofLittleEndian : List UInt8 → ℕ
  | [] => 0
  | b :: bs => b.toNat + 256 * ofLittleEndian bs

@[simp]
theorem length_littleEndian (n x : ℕ) :
  (littleEndian n x).length = n
  := by
  induction n generalizing x with
  | zero => rfl
  | succ n ih => simp [littleEndian, ih]

theorem ofLittleEndian_lt (l : List UInt8) :
  ofLittleEndian l < 256 ^ l.length
  := by
  induction l with
  | nil => simp [ofLittleEndian]
  | cons b bs ih =>
    have hb := b.toNat_lt
    simp only [ofLittleEndian, List.length_cons, pow_succ]
    omega

theorem ofLittleEndian_littleEndian {n x : ℕ} (h : x < 256 ^ n) :
  ofLittleEndian (littleEndian n x) = x
  := by
  induction n generalizing x with
  | zero =>
    simp only [pow_zero] at h
    simp only [littleEndian, ofLittleEndian]
    omega
  | succ n ih =>
    have hdiv : x / 256 < 256 ^ n := by
      rw [pow_succ] at h
      omega
    have hbyte : (UInt8.ofNat x).toNat = x % 256 := by simp
    simp only [littleEndian, ofLittleEndian, ih hdiv, hbyte]
    omega

theorem littleEndian_ofLittleEndian (l : List UInt8) :
  littleEndian l.length (ofLittleEndian l) = l
  := by
  induction l with
  | nil => rfl
  | cons b bs ih =>
    have hb := b.toNat_lt
    have hdiv : (b.toNat + 256 * ofLittleEndian bs) / 256 = ofLittleEndian bs := by omega
    have hbyte : UInt8.ofNat (b.toNat + 256 * ofLittleEndian bs) = b := by
      apply UInt8.toNat_inj.mp
      simp
    simp only [List.length_cons, littleEndian, ofLittleEndian, hdiv, hbyte, ih]

/-! ### Codecs -/

/-- The values of `α` as lists of `size` bytes. -/
structure Codec (α : Type) where
  size : ℕ
  encode : α → List UInt8
  decode : List UInt8 → α
  length_encode : ∀ v, (encode v).length = size
  decode_encode : ∀ v, decode (encode v) = v
  encode_decode : ∀ l, l.length = size → encode (decode l) = l

/-- A `uint32_t`. -/
def u32 : Codec UInt32 where
  size := 4
  encode v := littleEndian 4 v.toNat
  decode l := UInt32.ofNat (ofLittleEndian l)
  length_encode v := length_littleEndian 4 v.toNat
  decode_encode v := by
    rw [ofLittleEndian_littleEndian v.toNat_lt]
    simp
  encode_decode l hl := by
    have hlt := ofLittleEndian_lt l
    rw [hl] at hlt
    rw [UInt32.toNat_ofNat_of_lt' (by simpa [UInt32.size] using hlt)]
    rw [← hl]
    apply littleEndian_ofLittleEndian

/-- A `uint16_t`. -/
def u16 : Codec UInt16 where
  size := 2
  encode v := littleEndian 2 v.toNat
  decode l := UInt16.ofNat (ofLittleEndian l)
  length_encode v := length_littleEndian 2 v.toNat
  decode_encode v := by
    rw [ofLittleEndian_littleEndian v.toNat_lt]
    simp
  encode_decode l hl := by
    have hlt := ofLittleEndian_lt l
    rw [hl] at hlt
    rw [UInt16.toNat_ofNat_of_lt' (by simpa [UInt16.size] using hlt)]
    rw [← hl]
    apply littleEndian_ofLittleEndian

/-- A `short`. -/
def i16 : Codec Int16 where
  size := 2
  encode v := u16.encode v.toUInt16
  decode l := (u16.decode l).toInt16
  length_encode v := u16.length_encode v.toUInt16
  decode_encode v := by simp [u16.decode_encode]
  encode_decode l hl := by simp [u16.encode_decode l hl]

namespace Codec

variable {α : Type} (c : Codec α)

/-- The value in a place that held `old`, after as many of its bytes as there are have been
copied from the buffer; and the rest of the buffer. -/
def fill (old : α) (buf : List UInt8) : α × List UInt8 :=
  (c.decode (buf.take c.size ++ (c.encode old).drop (buf.take c.size).length), buf.drop c.size)

/-- A value that is in the buffer whole is read as it was written. -/
theorem fill_encode_append (old v : α) (rest : List UInt8) :
  c.fill old (c.encode v ++ rest) = (v, rest)
  := by
  have hv := c.length_encode v
  have htake : (c.encode v ++ rest).take c.size = c.encode v := by
    rw [← hv]
    apply List.take_left
  have hdrop : (c.encode v ++ rest).drop c.size = rest := by
    rw [← hv]
    apply List.drop_left
  have hnil : (c.encode old).drop (c.encode v).length = [] := by
    apply List.drop_eq_nil_of_le
    rw [hv, c.length_encode]
  rw [fill, htake, hdrop, hnil, List.append_nil, c.decode_encode]

theorem fill_encode (old v : α) :
  c.fill old (c.encode v) = (v, [])
  := by
  have h := c.fill_encode_append old v []
  rwa [List.append_nil] at h

/-- When there are no bytes, what was in the place stays. -/
theorem fill_nil (old : α) :
  c.fill old [] = (old, [])
  := by
  rw [fill, List.take_nil, List.nil_append, List.length_nil, List.drop_zero, c.decode_encode,
    List.drop_nil]

/-- When all bytes are there, nothing of what was in the place before is left. -/
theorem fill_of_length {buf : List UInt8} (h : c.size ≤ buf.length) (old : α) :
  c.fill old buf = (c.decode (buf.take c.size), buf.drop c.size)
  := by
  have hlen : (buf.take c.size).length = c.size := List.length_take_of_le h
  have hnil : (c.encode old).drop c.size = [] := by
    apply List.drop_eq_nil_of_le
    rw [c.length_encode]
  rw [fill, hlen, hnil, List.append_nil]

/-- A value of which some bytes are missing may be read as any other than the one
written. -/
theorem exists_fill_ne {buf : List UInt8} (h : buf.length < c.size) (v : α) :
  ∃ old, (c.fill old buf).1 ≠ v
  := by
  have hv := c.length_encode v
  -- the last byte is one of those that were in the place before
  let x := (c.encode v).getLastD 0 + 1
  have hx : (List.replicate c.size x).length = c.size := List.length_replicate
  use c.decode (List.replicate c.size x)
  intro heq
  have htake : buf.take c.size = buf := List.take_of_length_le (le_of_lt h)
  have hlen : (buf ++ (List.replicate c.size x).drop buf.length).length = c.size := by
    rw [List.length_append, List.length_drop, hx]
    omega
  rw [fill, htake, c.encode_decode _ hx] at heq
  have hbytes := congrArg c.encode heq
  rw [c.encode_decode _ hlen] at hbytes
  have hlast := congrArg (fun l => l.getLastD 0) hbytes
  have hrep : (buf ++ (List.replicate c.size x).drop buf.length).getLastD 0 = x := by
    rw [List.drop_replicate]
    obtain ⟨k, hk⟩ : ∃ k, c.size - buf.length = k + 1 := ⟨c.size - buf.length - 1, by omega⟩
    rw [hk, List.replicate_succ']
    simp
  simp only [hrep, x] at hlast
  have hnat := congrArg UInt8.toNat hlast
  have hlt := ((c.encode v).getLastD 0).toNat_lt
  rw [UInt8.toNat_add, show (1 : UInt8).toNat = 1 from rfl] at hnat
  omega

end Codec
