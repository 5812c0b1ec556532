import LibDht.Circle.Halving
import LibDht.Ring.Progress

/-!
# Logarithmic routing

On a ring whose finger tables are what `finger_update` stores for the true successors of the
points at the distances `1, 2, 4, ..., 2^30`, a lookup takes at most `idBits` forwards. A
forward covers the highest power of two in the distance to the last node before the
identifier, as far as there is a finger for it: there is none for `2^31`, and the table
makes up for it as the last forward is not needed when the identifier is that of a node.
-/

open Circle

/-- The point `2^(k-1)` after `i`, whose successor is the finger `k`. -/
def fingerStart (i : HashType) (k : Fin idBits) : HashType :=
  i + (2 ^ (k.val - 1)).toUInt32

theorem clockwise_add (i d : HashType) :
  clockwise i (i + d) = d.toNat
  := by
  have hsub : i + d - i = d := by
    rw [UInt32.add_comm, UInt32.add_sub_cancel]
  exact congrArg UInt32.toNat hsub

theorem clockwise_fingerStart (i : HashType) (k : Fin idBits) :
  clockwise i (fingerStart i k) = 2 ^ (k.val - 1)
  := by
  have hk : k.val < 32 := k.isLt
  have hlt : 2 ^ (k.val - 1) < 2 ^ 32 := Nat.pow_lt_pow_right (by omega) (by omega)
  rw [fingerStart, clockwise_add]
  exact Nat.mod_eq_of_lt hlt

namespace Overlay

/-- A ring of nodes known by identifiers, addresses and ports that are not zero, of a library
built with fingers: the first successor of every node is the next one clockwise, and the
fingers above `0` are what `finger_update` stores for the true successors. -/
structure Fingered (o : Overlay) : Prop where
  succ_alive : ∀ {i s}, o.node i = some s → nodeFirstAliveSucc s ≠ -1
  succ_next : ∀ {i s}, o.node i = some s → Next o.members i s.firstSucc.id
  id_ne_zero : ∀ i ∈ o.members, i ≠ 0
  built : ∀ {i s}, o.node i = some s → s.nofinger = false
  finger : ∀ {i s}, o.node i = some s → ∀ k : Fin idBits, k ≠ 0 →
    ∃ n : NodeInfo, n.IP ≠ 0 ∧ n.port ≠ 0 ∧ Nearest o.members (fingerStart i k) n.id
      ∧ s.fingerTable k = (fingerUpdate (idle s) n k).node.fingerTable k

variable {o : Overlay} {i id p : HashType} {s : NodeSelf}

/-! ### Fingers -/

/-- A finger in use is a node of the ring at least `2^(k-1)` away. -/
theorem Fingered.finger_far (h : o.Fingered) (hs : o.node i = some s) {k : Fin idBits}
    (hk : k ≠ 0) (hnull : ¬ NullFinger (s.fingerTable k)) :
  (s.fingerTable k).id ∈ o.members ∧ 2 ^ (k.val - 1) ≤ clockwise i (s.fingerTable k).id
  := by
  obtain ⟨n, hIP, hport, hnear, hentry⟩ := h.finger hs k hk
  have hself := o.self_id hs
  simp only [fingerUpdate, Function.update_self, idle_node, hself] at hentry
  split_ifs at hentry with hne
  · rw [hentry]
    use hnear.mem
    have hne' : i ≠ n.id := fun heq => hne (nodeIdCompare_eq_zero.mpr heq)
    have hpos := clockwise_pos hne'
    have hle := hnear.le i ⟨s, hs⟩
    have hlt := clockwise_lt i (fingerStart i k)
    have hstart := clockwise_fingerStart i k
    rcases clockwise_cases i (fingerStart i k) with h₁ | h₁ <;>
      rcases clockwise_cases (fingerStart i k) n.id with h₂ | h₂ <;>
        rcases clockwise_cases (fingerStart i k) i with h₃ | h₃ <;>
          rcases clockwise_cases i n.id with h₄ | h₄ <;> omega
  · rw [hentry] at hnull
    exact absurd (Or.inl rfl) hnull

/-- The finger for a power of two within the distance to another node is in use, and not past
that node. -/
theorem Fingered.finger_usable (h : o.Fingered) (hs : o.node i = some s) (hp : p ∈ o.members)
    {k : Fin idBits} (hk : k ≠ 0) (hle : 2 ^ (k.val - 1) ≤ clockwise i p) :
  ¬ NullFinger (s.fingerTable k) ∧ clockwise i (s.fingerTable k).id ≤ clockwise i p
  := by
  obtain ⟨n, hIP, hport, hnear, hentry⟩ := h.finger hs k hk
  have hself := o.self_id hs
  have hstart := clockwise_fingerStart i k
  have hpow : 0 < 2 ^ (k.val - 1) := Nat.two_pow_pos _
  have hsp := clockwise_add_of_le (hstart ▸ hle)
  have hnp := hnear.le p hp
  have hn := clockwise_lt (fingerStart i k) n.id
  have hdist : clockwise i n.id = 2 ^ (k.val - 1) + clockwise (fingerStart i k) n.id := by
    have hip := clockwise_lt i p
    rcases clockwise_cases i (fingerStart i k) with h₁ | h₁ <;>
      rcases clockwise_cases (fingerStart i k) n.id with h₂ | h₂ <;>
        rcases clockwise_cases i n.id with h₃ | h₃ <;> omega
  have hne : i ≠ n.id := by
    intro heq
    rw [← heq, clockwise_self] at hdist
    omega
  simp only [fingerUpdate, Function.update_self, idle_node, hself] at hentry
  rw [if_pos (fun h0 => hne (nodeIdCompare_eq_zero.mp h0))] at hentry
  rw [hentry]
  constructor
  · rintro (h0 | h0 | h0)
    · exact hIP h0
    · exact hport h0
    · exact h.id_ne_zero _ hnear.mem h0
  · omega

/-! ### Forwards -/

/-- The node that a lookup is forwarded to is a node of the ring on the way, and the forward
covers the highest power of two, up to `2^30`, in the distance to the last node on the way
to the identifier. -/
theorem Fingered.forward_covers (h : o.Fingered) (hs : o.node i = some s)
    (hlast : Latest o.members id p) (hans : ¬ s.Answers id) :
  let n := nodeClosestPrecedingNode s id
  n.id ∈ o.members ∧ clockwise i n.id ≤ clockwise i id ∧ 2 ≤ remaining id p i
    ∧ ∃ j ≤ 30, 2 ^ j ≤ clockwise i p ∧ (j = 30 ∨ clockwise i p < 2 ^ (j + 1))
      ∧ 2 ^ j ≤ clockwise i n.id
  := by
  have hi : i ∈ o.members := ⟨s, hs⟩
  have hself := o.self_id hs
  obtain ⟨hfar, hone⟩ := not_or.mp hans
  rw [hself] at hone
  have hnext := h.succ_next hs
  have hsucc := clockwise_pos hone
  have hpast : clockwise i s.firstSucc.id < clockwise i id := by
    rw [nodeIdInRange_iff, hself] at hfar
    omega
  have hp : 1 ≤ clockwise i p := hsucc.trans_le (hlast.le_of_le hi hnext.mem hpast.le)
  -- the finger for the highest power of two within the distance to `p`
  have hj : min 30 (Nat.log 2 (clockwise i p)) + 1 < idBits := by
    have : min 30 (Nat.log 2 (clockwise i p)) ≤ 30 := min_le_left _ _
    exact Nat.lt_of_le_of_lt (Nat.succ_le_succ this) (by decide)
  have hjp : 2 ^ min 30 (Nat.log 2 (clockwise i p)) ≤ clockwise i p :=
    (Nat.pow_le_pow_right (by omega) (min_le_right _ _)).trans (Nat.pow_log_le_self 2 (by omega))
  have htop : min 30 (Nat.log 2 (clockwise i p)) = 30
      ∨ clockwise i p < 2 ^ (min 30 (Nat.log 2 (clockwise i p)) + 1) := by
    rcases le_total 30 (Nat.log 2 (clockwise i p)) with hle | hle
    · left
      exact min_eq_left hle
    · right
      rw [min_eq_right hle]
      exact Nat.lt_pow_succ_log_self (by omega) _
  have hk : (⟨_, hj⟩ : Fin idBits) ≠ 0 := by
    intro h0
    exact absurd (congrArg Fin.val h0) (Nat.succ_ne_zero _)
  obtain ⟨hnull, hle⟩ := h.finger_usable hs hlast.mem hk hjp
  have hid := hlast.clockwise_add hi
  have hrange : nodeIdInRange (s.fingerTable ⟨_, hj⟩).id s.self.id id = true := by
    rw [nodeIdInRange_iff, hself]
    omega
  obtain ⟨k', hkk, hclosest, hnull', hrange'⟩ :=
    closestFinger_of_usable (h.built hs) hk hnull hrange
  have hk' : k' ≠ 0 := by
    rintro rfl
    exact hk (Fin.le_zero_iff.mp hkk)
  obtain ⟨hmem, hdist⟩ := h.finger_far hs hk' hnull'
  rw [nodeIdInRange_iff, hself] at hrange'
  have hn : nodeClosestPrecedingNode s id = s.fingerTable k' := by
    rw [nodeClosestPrecedingNode, hclosest]
  dsimp only
  rw [hn]
  refine ⟨hmem, hrange', ?_, _, min_le_left _ _, hjp, htop, ?_⟩
  · simp only [remaining]
    omega
  · have hval : min 30 (Nat.log 2 (clockwise i p)) ≤ k'.val - 1 := Nat.le_sub_one_of_lt hkk
    exact (Nat.pow_le_pow_right (by omega) hval).trans hdist

/-- Every forward brings the rank of what is left down. -/
theorem Fingered.forward_rank (h : o.Fingered) (hs : o.node i = some s)
    (hlast : Latest o.members id p) (hans : ¬ s.Answers id) :
  (nodeClosestPrecedingNode s id).id ∈ o.members
    ∧ hopRank 30 (remaining id p (nodeClosestPrecedingNode s id).id)
      < hopRank 30 (remaining id p i)
  := by
  have hi : i ∈ o.members := ⟨s, hs⟩
  obtain ⟨hmem, hle, htwo, j, hj, hjp, htop, hcovers⟩ := h.forward_covers hs hlast hans
  use hmem
  have hadd := hlast.remaining_add hi hmem hle
  apply hopRank_lt (hlast.remaining_cases hi) htwo (remaining_lt id p i) hj hjp htop
  omega

/-- A lookup is passed on to nodes of the ring. -/
theorem Fingered.passes_mem (h : o.Fingered) {j : HashType} (hij : o.Passes id i j) :
  j ∈ o.members
  := by
  obtain ⟨s, hs, -, hans, rfl⟩ := hij
  have hi : i ∈ o.members := ⟨s, hs⟩
  obtain ⟨p, hlast⟩ := exists_latest ⟨i, hi⟩ id
  exact (h.forward_rank hs hlast hans).1

/-! ### The whole lookup -/

/-- A chain of nodes that pass a lookup on makes as many forwards as the rank of what is left at
most. -/
theorem Fingered.forwards_le (h : o.Fingered) (hlast : Latest o.members id p) {js : List HashType}
    (hchain : (i :: js).IsChain (o.Passes id)) :
  js.length ≤ hopRank 30 (remaining id p i)
  := by
  apply hchain.length_le_measure (f := fun j => hopRank 30 (remaining id p j))
  rintro j - k ⟨s, hs, -, hans, rfl⟩
  exact (h.forward_rank hs hlast hans).2

/-- A lookup that spares the node that it is for is answered after as many forwards as the rank
of what is left at most, and the hops that its answer carries count them. -/
theorem Fingered.lookup_rank (h : o.Fingered) (hlast : Latest o.members id p) {rank : ℕ}
    (hi : i ∈ o.members) (hrank : hopRank 30 (remaining id p i) ≤ rank) {cb : FoundCb}
    (hcb : cb.Passive) (hlive : cb ≠ .freed) (hspares : o.Spares id i cb) :
  ∃ forwards ≤ rank, ∃ r rest, Nearest o.members id r.id
    ∧ ∀ fuel > forwards, o.lookup id fuel i cb = some ((r, Int16.ofNat forwards) :: rest)
  := by
  -- the induction is on the rank, which every forward brings down
  induction rank using Nat.strong_induction_on generalizing i cb with
  | _ rank ih =>
    obtain ⟨s, hs⟩ := hi
    by_cases hhere : i = id ∨ s.Answers id
    · have hlives := hspares.not_crashes hs hcb hlive
      obtain ⟨r, rest, hnear, hr⟩ := lookup_answer hs (h.succ_next hs) hcb hhere hlives
      use 0, Nat.zero_le rank, r, rest, hnear, hr
    · obtain ⟨hid, hans⟩ := not_or.mp hhere
      obtain ⟨hmem, hlt⟩ := h.forward_rank hs hlast hans
      have hrelay : relay.Passive := trivial
      have hspared := hspares.passes ⟨s, hs, hid, hans, rfl⟩
      obtain ⟨forwards, hle, r, rest, hnear, hr⟩ :=
        ih (rank - 1) (by omega) hmem (by omega) hrelay relay_ne_freed hspared
      use forwards + 1, by omega, r, [], hnear
      intro fuel hfuel
      obtain ⟨fuel, rfl⟩ := Nat.exists_eq_add_one.mpr (Nat.zero_lt_of_lt hfuel)
      rw [lookup_forward hs hcb hlive hid hans, hr fuel (by omega), handOn, List.nil_append]
      rw [Int16.ofNat_add]
      rfl

/-- A lookup started at any node for any identifier is forwarded at most `idBits` times; and it
is answered then, with the node that owns the identifier, when it spares the node that it is
for. The fuel of a lookup that is forwarded `forwards` times is one more at least: one for each
node that runs it. -/
theorem lookup_logarithmic (h : o.Fingered) (hi : i ∈ o.members) (id : HashType) {cb : FoundCb}
    (hcb : cb.Passive) (hlive : cb ≠ .freed) :
  (∀ js, (i :: js).IsChain (o.Passes id) → js.length ≤ idBits)
    ∧ (o.Spares id i cb → ∃ forwards ≤ idBits, ∃ r rest, Nearest o.members id r.id
      ∧ ∀ fuel > forwards, o.lookup id fuel i cb = some ((r, Int16.ofNat forwards) :: rest))
  := by
  obtain ⟨p, hlast⟩ := exists_latest ⟨i, hi⟩ id
  constructor
  · intro js hchain
    exact (h.forwards_le hlast hchain).trans (hopRank_le 30 _)
  · exact h.lookup_rank hlast hi (hopRank_le 30 _) hcb hlive

/-- A node of a ring of two, with its fingers. -/
def paired (i j : HashType) : NodeSelf :=
  { knowing i j with
    fingerTable := fun k =>
      if 2 ^ (k.val - 1) ≤ clockwise i j then { id := j, IP := 1, port := 1 } else nullNode }

/-- A ring of two nodes, one on each side of `0`, with their fingers. -/
def fingeredPair : Overlay where
  node i :=
    if i = 10 then some (paired 10 4000000000)
    else if i = 4000000000 then some (paired 4000000000 10)
    else none
  self_id := by
    intro i s hs
    split_ifs at hs with h₁ h₂
    · cases hs
      exact h₁.symm
    · cases hs
      exact h₂.symm

theorem mem_fingeredPair {i : HashType} :
  i ∈ fingeredPair.members ↔ i = 10 ∨ i = 4000000000
  := by
  constructor
  · rintro ⟨s, hs⟩
    simp only [fingeredPair] at hs
    split_ifs at hs with h₁ h₂
    · exact Or.inl h₁
    · exact Or.inr h₂
  · rintro (rfl | rfl)
    · exact ⟨_, rfl⟩
    · exact ⟨_, rfl⟩

/-- Each of the two nodes knows the other one. -/
theorem fingeredPair_cases {i : HashType} {s : NodeSelf} (hs : fingeredPair.node i = some s) :
  ∃ j, s = paired i j ∧ (i = 10 ∧ j = 4000000000 ∨ i = 4000000000 ∧ j = 10)
  := by
  simp only [fingeredPair] at hs
  split_ifs at hs with h₁ h₂
  · cases hs
    subst h₁
    exact ⟨_, rfl, Or.inl ⟨rfl, rfl⟩⟩
  · cases hs
    subst h₂
    exact ⟨_, rfl, Or.inr ⟨rfl, rfl⟩⟩

/-- The successor of the point for the finger `k` of `i`, when `j` is the only other node. -/
def pairedOwner (i j : HashType) (k : Fin idBits) : HashType :=
  if 2 ^ (k.val - 1) ≤ clockwise i j then j else i

theorem fingeredPair_nearest {i j : HashType}
    (h : i = 10 ∧ j = 4000000000 ∨ i = 4000000000 ∧ j = 10) (k : Fin idBits) (hk : k ≠ 0) :
  Nearest fingeredPair.members (fingerStart i k) (pairedOwner i j k)
  := by
  have hle : ∀ (b : Bool) (k : Fin idBits), k ≠ 0 →
      let i : HashType := if b then 10 else 4000000000
      let j : HashType := if b then 4000000000 else 10
      clockwise (fingerStart i k) (pairedOwner i j k) ≤ clockwise (fingerStart i k) i
        ∧ clockwise (fingerStart i k) (pairedOwner i j k) ≤ clockwise (fingerStart i k) j := by
    decide +kernel
  constructor
  · apply mem_fingeredPair.mpr
    rw [pairedOwner]
    rcases h with ⟨rfl, rfl⟩ | ⟨rfl, rfl⟩ <;> split_ifs <;> simp
  · intro x hx
    rcases h with ⟨rfl, rfl⟩ | ⟨rfl, rfl⟩ <;> rcases mem_fingeredPair.mp hx with rfl | rfl
    · exact (hle true k hk).1
    · exact (hle true k hk).2
    · exact (hle false k hk).2
    · exact (hle false k hk).1

theorem fingered_fingeredPair :
  fingeredPair.Fingered
  := by
  have halive : ∀ i j, (paired i j).Alive 0 := by
    intro i j
    exact (by decide : (1 : UInt32) ≠ 0)
  constructor
  · intro i s hs
    obtain ⟨j, rfl, -⟩ := fingeredPair_cases hs
    rw [nodeFirstAliveSucc_of_alive_zero (halive i j)]
    decide
  · intro i s hs
    obtain ⟨j, rfl, hij⟩ := fingeredPair_cases hs
    rw [firstSucc_of_alive_zero (halive i j)]
    constructor
    · apply mem_fingeredPair.mpr
      rcases hij with ⟨rfl, rfl⟩ | ⟨rfl, rfl⟩
      · exact Or.inr rfl
      · exact Or.inl rfl
    · intro x hx hxi
      rcases hij with ⟨rfl, rfl⟩ | ⟨rfl, rfl⟩ <;> rcases mem_fingeredPair.mp hx with rfl | rfl
      · exact absurd rfl hxi
      · exact ⟨by decide, le_rfl⟩
      · exact ⟨by decide, le_rfl⟩
      · exact absurd rfl hxi
  · intro i hi
    rcases mem_fingeredPair.mp hi with rfl | rfl <;> decide
  · intro i s hs
    obtain ⟨j, rfl, -⟩ := fingeredPair_cases hs
    rfl
  · intro i s hs k hk
    obtain ⟨j, rfl, hij⟩ := fingeredPair_cases hs
    have hne : i ≠ j := by
      rcases hij with ⟨rfl, rfl⟩ | ⟨rfl, rfl⟩ <;> decide
    have hone : (1 : UInt32) ≠ 0 := by decide
    have hone' : (1 : UInt16) ≠ 0 := by decide
    use { id := pairedOwner i j k, IP := 1, port := 1 }, hone, hone', fingeredPair_nearest hij k hk
    simp only [fingerUpdate, Function.update_self, paired, knowing, idle, pairedOwner]
    split_ifs with h₁ h₂ h₃
    · rfl
    · exact absurd (nodeIdCompare_eq_zero.mp (not_not.mp h₂)) hne
    · exact absurd (nodeIdCompare_eq_zero.mpr rfl) h₃
    · rfl

/-- The identifier `4000000001`, just behind the node `4000000000`, is found from the node `10`. -/
theorem lookup_logarithmic_fingeredPair :
  (∀ js, (10 :: js).IsChain (fingeredPair.Passes 4000000001) → js.length ≤ idBits)
    ∧ ∃ forwards ≤ idBits, ∃ r rest, Nearest fingeredPair.members 4000000001 r.id
      ∧ ∀ fuel > forwards,
        fingeredPair.lookup 4000000001 fuel 10 (.app 0) = some ((r, Int16.ofNat forwards) :: rest)
  := by
  have hten : 10 ∈ fingeredPair.members := mem_fingeredPair.mpr (Or.inl rfl)
  have happ : (FoundCb.app 0).Passive := trivial
  have hlog := lookup_logarithmic fingered_fingeredPair hten 4000000001 happ (by decide)
  have hnone : 4000000001 ∉ fingeredPair.members := by
    rw [mem_fingeredPair]
    decide
  exact ⟨hlog.1, hlog.2 (Spares.of_notMem fingered_fingeredPair.passes_mem hten hnone _)⟩

end Overlay
