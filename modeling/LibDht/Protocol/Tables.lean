import LibDht.Protocol.Settling

/-!
# The tables fill

On the ideal ring the finger table and the successor array of every node come to be right and
stay so. A finger is looked up by its own point on the circle, and a reply that names the
owner of the point makes it right; when the point is a node itself, the lookup may come to that
node, and then it is not answered. The entries of a successor array follow one another: once
an entry is right in the end, so is what is asked for the next one, what is replied, and what
is written there.
-/

open Circle Filter Function

/-! ### Where lookups start -/

/-- What a lookup that nobody has forwarded yet asks for, by the callback of the node `i` that
waits for its reply. -/
inductive Fresh (net : Net) (id i : HashType) : FoundCb → Prop where
  | finger {k : Fin idBits} (hid : id = fingerStart i k) : Fresh net id i (.fingerUpdate k)
  | first {s : NodeSelf} (hs : net.peer i = some ⟨s, true⟩) (hid : id = s.firstSucc.id + 1) :
      Fresh net id i (.updateSuccsFound 1)
  | entry {k : Fin numOfSuccs} {n : NodeInfo} {hops : Int16} (hk : k ≠ 0)
      (hm : .succReply n hops [⟨i, .updateSuccsFound k.val⟩] ∈ net.msgs) (hid : id = n.id + 1) :
      Fresh net id i (.updateSuccsFound (k.val + 1))
  | app {arg : ℕ} : Fresh net id i (.app arg)
  | join {arg : ℕ} : Fresh net id i (.networkJoinSuccFound arg)
  | relay : Fresh net id i relay

namespace Net

variable {c : HashType} {net : Net}

theorem Invariant.fresh (h : Invariant c net) {dest id : HashType} {f : Frame}
    (hb : Brings net (.succRequest dest id [f])) :
  Fresh net id f.owner f.cb
  := by
  cases hb with
  | received hm hi hrec =>
    generalize hout : some (Msg.succRequest dest id [f]) = out at hrec
    cases hrec with
    | forward hid hans =>
      cases hout
      exact .relay
    | entry hk =>
      split_ifs at hout
      cases hout
      exact .entry hk hm rfl
    | _ => cases hout
  | @started i s s' sent hi hstart hm =>
    cases hstart with
    | @updateSuccs k hk =>
      have hzero : k = 0 := by
        apply Fin.ext
        have hfirst : nodeFirstAliveSucc s = 0 := (h.running hi).firstAlive
        rw [hfirst] at hk
        exact (Int.natCast_eq_zero.mp hk.symm)
      subst hzero
      cases List.mem_singleton.mp hm
      have hsucc : s.firstSucc = s.successor 0 := (h.running hi).firstSucc_eq
      exact .first hi (by rw [hsucc])
    | fixFingers =>
      obtain ⟨dest, k, -, heq⟩ := eq_of_mem_route_fixFingers hm
      cases heq
      exact .finger (by rw [(h.peer hi).self_id])
    | lookup hid hans =>
      cases List.mem_singleton.mp hm
      exact .app
    | stabilise => cases List.mem_singleton.mp hm
    | answered => cases hm
  | asked hm =>
    cases hm
    exact .join

end Net

/-! ### Fingers -/

section Fingers

variable {J : Set HashType} {i : HashType} {msgs : List Msg} {s s' : NodeSelf}

/-- Where only right replies are in flight, what is right stays so. -/
theorem Change.finger_right (h : Change msgs i s s') (hsettled : Overlay.Settled J i s)
    (hreplies : ∀ n hops k, .succReply n hops [⟨i, .fingerUpdate k⟩] ∈ msgs →
      Nearest J (fingerStart i k) n.id)
    {k : Fin idBits} (hk : FingerRight J i s k) :
  FingerRight J i s' k
  := by
  have hsame : ∀ {t : NodeSelf}, t.fingerTable = s.fingerTable → FingerRight J i t k := by
    rintro t ht
    rw [FingerRight, ht]
    exact hk
  cases h with
  | kept => exact hk
  | entry hk' hm => exact hsame rfl
  | @finger n hops k' hm =>
    exact (fingerUpdate_right (p := idle s) hsettled (hreplies n hops k' hm)).2.2 k hk
  | fixFingers => exact (fixFingers_fixing hsettled).kept k hk
  | adopt hm => exact hsame (adopted_fingerTable s _).1
  | notify hip hm =>
    apply hsame
    rw [nodeNotified]
    split_ifs <;> rfl

end Fingers

namespace Net

variable {c : HashType} {net : Net} {run : ℕ → Net} {T : ℕ} {J : Set HashType}

/-- A lookup for a finger is to ask for the point of the finger. -/
def fingerAim (f : Frame) : Option HashType :=
  match f.cb with
  | .fingerUpdate k => some (fingerStart f.owner k)
  | _ => none

namespace Steady

/-- In the end the replies to lookups for fingers are right. -/
theorem finger_replies (h : Steady c J run T) :
  ∀ᶠ n in atTop, ∀ i node hops k,
    .succReply node hops [⟨i, .fingerUpdate k⟩] ∈ (run n).msgs →
      Nearest J (fingerStart i k) node.id
  := by
  have haimed := h.aimed fingerAim (by
    apply Eventually.of_forall
    rintro n dest id ⟨i, cb⟩ hb a ha
    have hfresh := (h.invariant n).fresh hb
    dsimp only at hfresh
    cases hfresh with
    | finger hid =>
      cases ha
      exact hid
    | _ => cases ha)
  apply haimed.mono
  intro n hn i node hops k hm
  exact hn node hops _ hm (List.cons_ne_nil _ _) _ rfl

/-- Some time a finger of a joined node is right, when its point is not a node. -/
theorem exists_finger_right (h : Steady c J run T) {i : HashType} (hi : i ∈ J) {k : Fin idBits}
    (hk : k ≠ 0) (hpoint : fingerStart i k ∉ J) (N : ℕ) :
  ∃ n ≥ N, ∃ s, (run n).peer i = some ⟨s, true⟩ ∧ FingerRight J i s k
  := by
  have hjoined : i ∈ (run (max N T)).Joined := by
    rw [h.joined _ (le_max_right N T)]
    exact hi
  obtain ⟨k₀, hk₀, s₀, hs₀, heq⟩ := h.fair.timer .fixFingers hjoined
  have hround := fixFingers_fixing (h.settled (n := k₀) (by omega) hs₀)
  rcases hround.done k hk k.isLt with hright | ⟨dest, hsent⟩
  · refine ⟨k₀ + 1, by omega, _, ?_, hright⟩
    rw [heq]
    exact update_self ..
  · have hin : .succRequest dest.id (fingerStart i k) [⟨i, .fingerUpdate k⟩]
        ∈ (run (k₀ + 1)).msgs := by
      rw [heq]
      apply List.mem_append_right
      apply List.mem_append_left
      exact List.mem_filterMap.mpr ⟨_, hsent, rfl⟩
    obtain ⟨k₁, hk₁, ⟨node, hnear, hops, -, harr⟩ | hcomes⟩ := h.answered (by omega) hin rfl
    · obtain ⟨j, peer, peer', out, hj, hrec, hpeer, -⟩ :=
        (Arrives.received harr (h.invariant k₁).orderly).exists
      cases hrec with
      | @finger s =>
        refine ⟨k₁ + 1, by omega, _, by rw [hpeer, update_self], ?_⟩
        exact (fingerUpdate_right (p := idle s) (h.settled (n := k₁) (by omega) hj) hnear).2.1
    · have hmem := (hcomes.joined (h.invariant k₁)).1
      rw [h.joined k₁ (by omega)] at hmem
      exact absurd hmem hpoint

/-- In the end every finger is right, when its point is not a node. -/
theorem fingers (h : Steady c J run T) :
  ∀ᶠ n in atTop, ∀ i s, (run n).peer i = some ⟨s, true⟩ → ∀ k ≠ 0, fingerStart i k ∉ J →
    FingerRight J i s k
  := by
  have hone : ∀ k, ∀ᶠ n in atTop, ∀ i s, (run n).peer i = some ⟨s, true⟩ →
      k ≠ 0 ∧ fingerStart i k ∉ J → FingerRight J i s k := by
    intro k
    refine h.ultimately (P := fun i s => k ≠ 0 ∧ fingerStart i k ∉ J → FingerRight J i s k) ?_ ?_
    · apply (h.finger_replies.and (eventually_ge_atTop T)).mono
      rintro n ⟨hreplies, hT⟩ i s s' hs hchange hright hk
      exact hchange.finger_right (h.settled hT hs) (hreplies i) (hright hk)
    · intro i hi N
      by_cases hk : k ≠ 0 ∧ fingerStart i k ∉ J
      · obtain ⟨n, hn, s, hs, hright⟩ := h.exists_finger_right hi hk.1 hk.2 N
        exact ⟨n, hn, s, hs, fun _ => hright⟩
      · obtain ⟨s, hs⟩ : i ∈ (run (max N T)).Joined := by
          rw [h.joined _ (le_max_right N T)]
          exact hi
        exact ⟨_, le_max_left N T, s, hs, fun hk' => absurd hk' hk⟩
  apply (eventually_all.mpr hone).mono
  intro n hn i s hs k hk hpoint
  exact hn k i s hs ⟨hk, hpoint⟩

end Steady

/-- In a fair run in which the network is parted at some time, there comes a time from which on
every finger of every node, other than the one that is not used and those whose points are
nodes, is the node met first from the point of the finger on. -/
theorem Fair.fingers_right (h : Fair run) (h₀ : Reachable c (run 0))
    (hparted : ∃ n, Parted (run n)) :
  ∃ T, ∀ n ≥ T, ∀ i s, (run n).peer i = some ⟨s, true⟩ →
    ∀ k ≠ 0, fingerStart i k ∉ (run n).Joined → FingerRight (run n).Joined i s k
  := by
  obtain ⟨T, hsteady⟩ := h.exists_steady h₀ hparted
  obtain ⟨T', hT'⟩ := eventually_atTop.mp (hsteady.fingers.and (eventually_ge_atTop T))
  use T'
  intro n hn
  rw [hsteady.joined n (hT' n hn).2]
  exact (hT' n hn).1

theorem fingers_right_third :
  ∃ run, run 0 = third ∧ Fair run
    ∧ ∃ T, ∀ n ≥ T, ∀ i s, (run n).peer i = some ⟨s, true⟩ →
      ∀ k ≠ 0, fingerStart i k ∉ (run n).Joined → FingerRight (run n).Joined i s k
  := by
  obtain ⟨run, hzero, hfair⟩ := reachable_third.exists_fair
  exact ⟨run, hzero, hfair, hfair.fingers_right (hzero ▸ reachable_third) ⟨0, hzero ▸ parted_third⟩⟩

end Net

/-! ### Successor arrays -/

/-- Where only right replies for the entry `k` are in flight, what is right there stays so. -/
theorem Change.entry_right {i : HashType} {msgs : List Msg} {s s' : NodeSelf}
    (h : Change msgs i s s') {k : Fin numOfSuccs} (hk : k ≠ 0) {P : NodeInfo → Prop}
    (hreplies : ∀ n hops, .succReply n hops [⟨i, .updateSuccsFound k.val⟩] ∈ msgs → P n)
    (hs : P (s.successor k)) :
  P (s'.successor k)
  := by
  cases h with
  | kept => exact hs
  | @entry n hops j hj hm =>
    by_cases hjk : k = j
    · subst hjk
      simpa using hreplies n hops hm
    · simpa [update_of_ne hjk] using hs
  | finger hm => exact hs
  | fixFingers =>
    obtain ⟨fingers, hnode⟩ := (fixesFingers s).node
    rw [hnode]
    exact hs
  | adopt hm =>
    rw [adopted_successor_of_ne s _ hk]
    exact hs
  | notify hip hm =>
    rw [nodeNotified]
    split_ifs <;> exact hs

namespace Net

variable {c : HashType} {net : Net} {run : ℕ → Net} {T : ℕ} {J : Set HashType}

section Entries

variable {net' : Net} {i : HashType}

/-- A node that updates its successor array asks its first successor for the next node. -/
theorem Fires.asks_next (hf : Fires .updateSuccs i net net') (h : Invariant c net) :
  ∃ s, net.peer i = some ⟨s, true⟩
    ∧ .succRequest s.firstSucc.id (s.firstSucc.id + 1) [⟨i, .updateSuccsFound 1⟩] ∈ net'.msgs
  := by
  obtain ⟨s, hs, rfl⟩ := hf
  have hrun := h.running hs
  have hsent := nodeUpdateSuccs_sent (s := s) (k := 0) hrun.firstAlive hrun.alive_zero
  have hfirst : s.successor 0 = s.firstSucc := hrun.firstSucc_eq.symm
  rw [hfirst] at hsent
  refine ⟨s, hs, List.mem_append_right _ (List.mem_append_left _ ?_)⟩
  exact List.mem_filterMap.mpr ⟨_, by rw [Timer.fire, hsent]; exact List.mem_cons_self, rfl⟩

/-- A node that is replied for an entry writes it, and goes on to the next one. -/
theorem Received.writes {node : NodeInfo} {hops : Int16} {k : Fin numOfSuccs}
    (h : Received (.succReply node hops [⟨i, .updateSuccsFound k.val⟩]) net net') :
  ∃ s, net.peer i = some ⟨s, true⟩
    ∧ net'.peer i = some ⟨{ s with successor := update s.successor k node }, true⟩
    ∧ (k.val + 1 < numOfSuccs →
      .succRequest node.id (node.id + 1) [⟨i, .updateSuccsFound (k.val + 1)⟩] ∈ net'.msgs)
  := by
  obtain ⟨j, peer, peer', out, hj, hrec, hpeer, hout⟩ := h.exists
  generalize hm : Msg.succReply node hops [⟨i, .updateSuccsFound k.val⟩] = m at hrec
  cases hrec with
  | @entry s n hops' k' hk' =>
    simp only [Msg.succReply.injEq, List.cons.injEq, Frame.mk.injEq, FoundCb.updateSuccsFound.injEq,
      Nat.cast_inj, and_true] at hm
    obtain ⟨rfl, rfl, rfl, hk⟩ := hm
    obtain rfl : k = k' := Fin.ext hk
    refine ⟨s, hj, by rw [hpeer, update_self], ?_⟩
    intro hlt
    exact hout _ (by rw [if_pos hlt]; rfl)
  | _ => cases hm

end Entries

/-- A lookup for the entry `k + 1` is to ask for what comes after the node `v i`. -/
def entryAim (v : HashType → HashType) (k : ℕ) (f : Frame) : Option HashType :=
  match f.cb with
  | .updateSuccsFound j => if j = k + 1 then some (v f.owner + 1) else none
  | _ => none

theorem mem_entryAim {v : HashType → HashType} {k : ℕ} {f : Frame} {a : HashType} :
  a ∈ entryAim v k f ↔ f.cb = .updateSuccsFound (k + 1) ∧ a = v f.owner + 1
  := by
  obtain ⟨i, cb⟩ := f
  cases cb with
  | updateSuccsFound j =>
    by_cases hj : j = k + 1
    · simp [entryAim, hj, eq_comm]
    · simp [entryAim, hj]
  | _ => simp [entryAim]

/-- The entry `k` of every node `i` holds the node `v i`, and replies for it name that node. -/
structure EntryRight (net : Net) (k : Fin numOfSuccs) (v : HashType → HashType) : Prop where
  entry : ∀ i s, net.peer i = some ⟨s, true⟩ → s.Alive k ∧ (s.successor k).id = v i
  reply : k ≠ 0 → ∀ i node hops, .succReply node hops [⟨i, .updateSuccsFound k.val⟩] ∈ net.msgs →
    node.id = v i

namespace Steady

/-- The entry `0` is the first successor. -/
theorem entry_zero (h : Steady c J run T) {v : HashType → HashType} (hv : ∀ i, Next J i (v i)) :
  ∀ᶠ n in atTop, EntryRight (run n) 0 v
  := by
  apply (eventually_ge_atTop T).mono
  intro n hT
  constructor
  · intro i s hs
    have halive := (h.invariant n).alive_zero hs
    have hnext := (h.settled hT hs).succ_next
    rw [firstSucc_of_alive_zero halive] at hnext
    exact ⟨halive, hnext.unique (hv i)⟩
  · intro hne
    exact absurd rfl hne

/-- When the entry `k` is right in the end, so are the replies for the next one, wherever they
have got to. -/
theorem entry_replies (h : Steady c J run T) {v w : HashType → HashType}
    (hw : ∀ i, Next J (v i) (w i)) {k k' : Fin numOfSuccs} (hk : k'.val = k.val + 1)
    (hright : ∀ᶠ n in atTop, EntryRight (run n) k v) :
  ∀ᶠ n in atTop, ∀ i node hops frames, .succReply node hops frames ∈ (run n).msgs →
    frames.getLast? = some ⟨i, .updateSuccsFound k'.val⟩ → node.id = w i
  := by
  have haimed := h.aimed (entryAim v k.val) (by
    apply hright.mono
    rintro n hn dest id ⟨i, cb⟩ hb a ha
    have hfresh := (h.invariant n).fresh hb
    obtain ⟨hcb, rfl⟩ := mem_entryAim.mp ha
    dsimp only at hfresh hcb
    cases hfresh with
    | @first s hs hid =>
      injection hcb with hcb
      obtain rfl : k = 0 := Fin.ext (by simpa using hcb)
      have halive := (h.invariant n).alive_zero hs
      rw [hid, firstSucc_of_alive_zero halive, (hn.entry i s hs).2]
    | @entry j node hops hj hm hid =>
      injection hcb with hcb
      obtain rfl : j = k := Fin.ext (by omega)
      rw [hid, hn.reply hj i node hops hm]
    | _ => cases hcb)
  apply haimed.mono
  intro n hn i node hops frames hm hbottom
  have hcast : ((k'.val : ℕ) : ℤ) = k.val + 1 := by omega
  have hlast : v i + 1 ∈ entryAim v k.val ⟨i, .updateSuccsFound k'.val⟩ :=
    mem_entryAim.mpr ⟨congrArg FoundCb.updateSuccsFound hcast, rfl⟩
  have haim : v i + 1 ∈ aimOf (entryAim v k.val) frames := by
    rw [aimOf, hbottom]
    exact hlast
  have hne : frames ≠ [] := by
    rintro rfl
    cases hbottom
  exact (next_of_nearest_succ (hn node hops frames hm hne _ haim)).unique (hw i)

/-- A request for an entry is answered. -/
theorem entry_answered (h : Steady c J run T) {n : ℕ} (hn : T ≤ n) {i dest id : HashType} {k : ℤ}
    (hm : .succRequest dest id [⟨i, .updateSuccsFound k⟩] ∈ (run n).msgs) :
  ∃ j ≥ n, ∃ node hops,
    Arrives (.succReply node hops [⟨i, .updateSuccsFound k⟩]) (run j) (run (j + 1))
  := by
  obtain ⟨j, hj, hfound⟩ := h.answered hn hm rfl
  obtain ⟨node, -, hops, -, harr⟩ := hfound.resolve_right (ComesHome.not_entry (h.direct j))
  exact ⟨j, hj, node, hops, harr⟩

/-- The entries of a joined node are looked for again and again. -/
theorem exists_entry_request (h : Steady c J run T) {i : HashType} (hi : i ∈ J)
    {k : Fin numOfSuccs} (hk : k ≠ 0) (N : ℕ) :
  ∃ n ≥ N, ∃ dest id, .succRequest dest id [⟨i, .updateSuccsFound k.val⟩] ∈ (run n).msgs
  := by
  -- the reply for one entry brings the request for the next one
  obtain ⟨k, hlt⟩ := k
  induction k generalizing N with
  | zero => exact absurd rfl hk
  | succ k ih =>
    by_cases hzero : k = 0
    · subst hzero
      have hjoined : i ∈ (run (max N T)).Joined := by
        rw [h.joined _ (le_max_right N T)]
        exact hi
      obtain ⟨k₀, hk₀, hfires⟩ := h.fair.timer .updateSuccs hjoined
      obtain ⟨s, -, hm⟩ := hfires.asks_next (h.invariant k₀)
      exact ⟨k₀ + 1, by omega, _, _, hm⟩
    · have hne : (⟨k, by omega⟩ : Fin numOfSuccs) ≠ 0 := fun heq => hzero (congrArg Fin.val heq)
      obtain ⟨n, hn, dest, id, hm⟩ := ih (max N T) (by omega) hne
      obtain ⟨k₁, hk₁, node, hops, harr⟩ := h.entry_answered (by omega) hm
      obtain ⟨s, -, -, hnext⟩ := (Arrives.received harr (h.invariant k₁).orderly).writes
      exact ⟨k₁ + 1, by omega, _, _, hnext hlt⟩

/-- When the entry `k` is right in the end, so is the next one. -/
theorem entry_succ (h : Steady c J run T) {v w : HashType → HashType}
    (hw : ∀ i, Next J (v i) (w i)) {k k' : Fin numOfSuccs} (hk : k'.val = k.val + 1)
    (hright : ∀ᶠ n in atTop, EntryRight (run n) k v) :
  ∀ᶠ n in atTop, EntryRight (run n) k' w
  := by
  have hreplies := h.entry_replies hw hk hright
  have hne : k' ≠ 0 := by
    rintro rfl
    exact absurd hk (Nat.succ_ne_zero _).symm
  have hentries := h.ultimately (P := fun i s => s.Alive k' ∧ (s.successor k').id = w i) (by
      apply hreplies.mono
      rintro n hn i s s' hs hchange hright
      have hknown : ∀ node hops,
          .succReply node hops [⟨i, .updateSuccsFound k'.val⟩] ∈ (run n).msgs →
            node.IP ≠ 0 ∧ node.id = w i := by
        intro node hops hm
        exact ⟨((h.invariant n).msg _ hm).1.IP_ne, hn i node hops _ hm rfl⟩
      exact hchange.entry_right hne hknown hright)
    (by
      obtain ⟨N₀, hN₀⟩ := eventually_atTop.mp hreplies
      intro i hi N
      obtain ⟨n, hn, dest, id, hm⟩ := h.exists_entry_request hi hne (max N (max T N₀))
      obtain ⟨k₁, hk₁, node, hops, harr⟩ := h.entry_answered (by omega) hm
      obtain ⟨s, -, hs', -⟩ := (Arrives.received harr (h.invariant k₁).orderly).writes
      have hIP := ((h.invariant k₁).msg _ harr.mem).1.IP_ne
      refine ⟨k₁ + 1, by omega, _, hs', ?_, ?_⟩
      · rw [NodeSelf.Alive]
        simpa using hIP
      · simpa using hN₀ k₁ (by omega) i node hops _ harr.mem rfl)
  apply (hentries.and hreplies).mono
  rintro n ⟨hn, hreply⟩
  constructor
  · exact hn
  · intro _ i node hops hm
    exact hreply i node hops _ hm rfl

/-- In the end the entry `k` of every node is the one that `k + 1` steps clockwise lead to. -/
theorem entries (h : Steady c J run T) {f : HashType → HashType} (hf : ∀ i, Next J i (f i))
    (k : Fin numOfSuccs) :
  ∀ᶠ n in atTop, EntryRight (run n) k f^[k.val + 1]
  := by
  obtain ⟨k, hk⟩ := k
  induction k with
  | zero => exact h.entry_zero hf
  | succ k ih =>
    apply h.entry_succ _ rfl (ih (by omega))
    intro i
    have hnext := hf (f^[k + 1] i)
    rw [← iterate_succ_apply' f] at hnext
    exact hnext

end Steady

/-- The successor array of the node `i` holds, in order, the nodes that follow clockwise. -/
structure SuccsRight (J : Set HashType) (i : HashType) (s : NodeSelf) : Prop where
  alive : ∀ k, s.Alive k
  first : Next J i (s.successor 0).id
  next : ∀ j k : Fin numOfSuccs, k.val = j.val + 1 → Next J (s.successor j).id (s.successor k).id

/-- The node that comes after each. -/
theorem Steady.exists_follower (h : Steady c J run T) :
  ∃ f : HashType → HashType, ∀ i, Next J i (f i)
  := by
  have hsome : J.Nonempty := ⟨c, h.joined T le_rfl ▸ (h.invariant T).root_mem⟩
  exact ⟨_, fun i => (exists_next hsome i).choose_spec⟩

/-- In the end the successor arrays are right. -/
theorem Steady.succs (h : Steady c J run T) :
  ∀ᶠ n in atTop, ∀ i s, (run n).peer i = some ⟨s, true⟩ → SuccsRight J i s
  := by
  obtain ⟨f, hf⟩ := h.exists_follower
  apply (eventually_all.mpr (h.entries hf)).mono
  intro n hn i s hs
  have hentry : ∀ k, s.Alive k ∧ (s.successor k).id = f^[k.val + 1] i :=
    fun k => (hn k).entry i s hs
  constructor
  · intro k
    exact (hentry k).1
  · rw [(hentry 0).2]
    exact hf i
  · intro j k hjk
    have hnext := hf (f^[j.val + 1] i)
    rw [← iterate_succ_apply' f] at hnext
    rw [(hentry k).2, (hentry j).2, hjk]
    exact hnext

/-- In a fair run in which the network is parted at some time, there comes a time from which on
the successor array of every node holds, in order, the nodes that follow clockwise. -/
theorem Fair.succs_right (h : Fair run) (h₀ : Reachable c (run 0))
    (hparted : ∃ n, Parted (run n)) :
  ∃ T, ∀ n ≥ T, ∀ i s, (run n).peer i = some ⟨s, true⟩ → SuccsRight (run n).Joined i s
  := by
  obtain ⟨T, hsteady⟩ := h.exists_steady h₀ hparted
  obtain ⟨T', hT'⟩ := eventually_atTop.mp (hsteady.succs.and (eventually_ge_atTop T))
  use T'
  intro n hn
  rw [hsteady.joined n (hT' n hn).2]
  exact (hT' n hn).1

theorem succs_right_third :
  ∃ run, run 0 = third ∧ Fair run
    ∧ ∃ T, ∀ n ≥ T, ∀ i s, (run n).peer i = some ⟨s, true⟩ → SuccsRight (run n).Joined i s
  := by
  obtain ⟨run, hzero, hfair⟩ := reachable_third.exists_fair
  exact ⟨run, hzero, hfair, hfair.succs_right (hzero ▸ reachable_third) ⟨0, hzero ▸ parted_third⟩⟩

end Net
