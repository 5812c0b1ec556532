import Mathlib.Data.List.Basic

/-!
# Streams in segments

A stream arrives in segments, which a reader collects until it has as many bytes as it
waits for. What it has then is as long as the segments make it: it goes on to the end of
the segment that brings enough. A reader that waits for `t` bytes therefore gets at least
`w` of them exactly when the stream is not cut at any place from `t` on and before `w`.
-/

variable {α : Type}

/-- What a reader has who has `acc` and waits for `t` bytes, when it has enough; and the
segments that are still to come. -/
def collect (t : ℕ) (acc : List α) : List (List α) → Option (List α × List (List α))
  | [] => none
  | s :: ss => if t ≤ (acc ++ s).length then some (acc ++ s, ss) else collect t (acc ++ s) ss

/-- No place from `t` on and before `w` is the end of a segment. -/
def NoCut (t w : ℕ) (acc : List α) (segments : List (List α)) : Prop :=
  ∀ k, (acc ++ (segments.take k).flatten).length < t
    ∨ w ≤ (acc ++ (segments.take k).flatten).length

theorem noCut_cons {t w : ℕ} {acc s : List α} {ss : List (List α)} (hacc : acc.length < t) :
  NoCut t w acc (s :: ss) ↔ NoCut t w (acc ++ s) ss
  := by
  constructor
  · intro h k
    have hk := h (k + 1)
    rwa [List.take_succ_cons, List.flatten_cons, ← List.append_assoc] at hk
  · intro h k
    cases k with
    | zero =>
      left
      simpa using hacc
    | succ k =>
      rw [List.take_succ_cons, List.flatten_cons, ← List.append_assoc]
      exact h k

/-- A reader that never has enough gets all segments, and they are too short. -/
theorem collect_eq_none {t : ℕ} {acc : List α} {segments : List (List α)} (hacc : acc.length < t)
    (h : collect t acc segments = none) (k : ℕ) :
  (acc ++ (segments.take k).flatten).length < t
  := by
  induction segments generalizing acc k with
  | nil => simpa using hacc
  | cons s ss ih =>
    unfold collect at h
    split at h
    · cases h
    · rename_i hs
      cases k with
      | zero => simpa using hacc
      | succ k =>
        rw [List.take_succ_cons, List.flatten_cons, ← List.append_assoc]
        exact ih (Nat.lt_of_not_le hs) h k

/-- A reader that has enough has a part of the stream, and the rest is still to come. -/
theorem collect_eq_some {t : ℕ} {acc : List α} {segments : List (List α)} {buf : List α}
    {rest : List (List α)} (h : collect t acc segments = some (buf, rest)) :
  t ≤ buf.length ∧ buf ++ rest.flatten = acc ++ segments.flatten
  := by
  induction segments generalizing acc with
  | nil => cases h
  | cons s ss ih =>
    unfold collect at h
    split at h
    · rename_i hs
      obtain ⟨rfl, rfl⟩ := Prod.mk.inj (Option.some.inj h)
      exact ⟨hs, by simp⟩
    · obtain ⟨hlen, hall⟩ := ih h
      refine ⟨hlen, ?_⟩
      rw [hall, List.flatten_cons, List.append_assoc]

/-- A reader that waits for `t` bytes gets `w` exactly when no cut is in between. -/
theorem le_length_collect_iff {t w : ℕ} {acc : List α} {segments : List (List α)} {buf : List α}
    {rest : List (List α)} (hacc : acc.length < t)
    (h : collect t acc segments = some (buf, rest)) :
  w ≤ buf.length ↔ NoCut t w acc segments
  := by
  induction segments generalizing acc with
  | nil => cases h
  | cons s ss ih =>
    rw [noCut_cons hacc]
    unfold collect at h
    split at h
    · rename_i hs
      obtain ⟨rfl, rfl⟩ := Prod.mk.inj (Option.some.inj h)
      constructor
      · intro hw k
        right
        rw [List.length_append]
        omega
      · intro hcut
        have hzero := hcut 0
        simp only [List.take_zero, List.flatten_nil, List.append_nil] at hzero
        omega
    · rename_i hs
      exact ih (Nat.lt_of_not_le hs) h

/-- A reader that gets the whole stream has only empty segments to come. -/
theorem eq_nil_of_collect {t : ℕ} {acc : List α} {segments : List (List α)} {buf : List α}
    {rest : List (List α)} (h : collect t acc segments = some (buf, rest))
    (hall : (acc ++ segments.flatten).length ≤ buf.length) :
  buf = acc ++ segments.flatten ∧ ∀ s ∈ rest, s = []
  := by
  obtain ⟨-, heq⟩ := collect_eq_some h
  have hlen := congrArg List.length heq
  rw [List.length_append] at hlen
  have hrest : rest.flatten = [] := by
    apply List.length_eq_zero_iff.mp
    omega
  rw [hrest, List.append_nil] at heq
  exact ⟨heq, List.flatten_eq_nil_iff.mp hrest⟩

/-- The segment that brings enough, those before it and those after it. -/
theorem exists_split_of_collect {t : ℕ} {acc : List α} {segments : List (List α)} {buf : List α}
    {rest : List (List α)} (hacc : acc.length < t)
    (h : collect t acc segments = some (buf, rest)) :
  ∃ before s, segments = before ++ s :: rest ∧ (acc ++ before.flatten).length < t
    ∧ buf = acc ++ before.flatten ++ s
  := by
  induction segments generalizing acc with
  | nil => cases h
  | cons s ss ih =>
    unfold collect at h
    split at h
    · obtain ⟨rfl, rfl⟩ := Prod.mk.inj (Option.some.inj h)
      exact ⟨[], s, rfl, by simpa using hacc, by simp⟩
    · rename_i hs
      obtain ⟨before, s', hss, hfew, hbuf⟩ := ih (Nat.lt_of_not_le hs) h
      refine ⟨s :: before, s', ?_, ?_, ?_⟩
      · rw [hss, List.cons_append]
      · rwa [List.flatten_cons, ← List.append_assoc]
      · simp only [hbuf, List.flatten_cons, List.append_assoc]
