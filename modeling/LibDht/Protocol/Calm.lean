import LibDht.Protocol.Tables

/-!
# Calm networks

A network is calm when every successor array holds the nodes that follow, in order, and when
whatever is in flight agrees with that: requests for an entry are at the node in the entry
before, replies for it name the node in it, and a stabilisation is between neighbours. In a
fair run of a parted network what was sent earlier is used up, and the network becomes calm.
-/

open Circle Filter Function

namespace Net

/-! ### Calm networks -/

/-- What is in flight agrees with the successor arrays, and with the predecessors. -/
def Agrees (net : Net) : Msg → Prop
  | .succRequest dest _ frames => ∀ i s (j k : Fin numOfSuccs), k.val = j.val + 1 →
      frames.getLast? = some ⟨i, .updateSuccsFound k.val⟩ → net.peer i = some ⟨s, true⟩ →
      dest = (s.successor j).id
  | .succReply n _ frames => ∀ i s (k : Fin numOfSuccs), k ≠ 0 →
      frames.getLast? = some ⟨i, .updateSuccsFound k.val⟩ → net.peer i = some ⟨s, true⟩ →
      n.id = (s.successor k).id
  | .predRequest dest f => Next net.Joined f.owner dest
  | .predReply n _ f => n = nullNode ∨ n.id = f.owner
  | .notify dest id _ => Next net.Joined id dest

/-- A network in which every node knows the nodes that follow and the one before it. -/
structure Calm (c : HashType) (net : Net) : Prop where
  invariant : Invariant c net
  succs : ∀ {i s}, net.peer i = some ⟨s, true⟩ → SuccsRight net.Joined i s
  pred : ∀ {i s}, net.peer i = some ⟨s, true⟩ → s.hasPred = true →
    Next net.Joined s.predecessor.id i
  agrees : ∀ m ∈ net.msgs, net.Agrees m

end Net

/-! ### Fair runs become calm -/

namespace Net

variable {c : HashType} {net : Net} {v : HashType → HashType} {k : Fin numOfSuccs}

/-- What asks another node than `v i` for the entry `k + 1` of the node `i`. -/
def StrayEntry (v : HashType → HashType) (k : Fin numOfSuccs) : Msg → Prop
  | .succRequest dest _ frames =>
    ∃ i, frames.getLast? = some ⟨i, .updateSuccsFound (k.val + 1)⟩ ∧ dest ≠ v i
  | _ => False

theorem not_strayEntry {dest id i : HashType} {cb : FoundCb}
    (h : cb = .updateSuccsFound (k.val + 1) → dest = v i) :
  ¬ StrayEntry v k (.succRequest dest id [⟨i, cb⟩])
  := by
  rintro ⟨x, hbottom, hnot⟩
  cases hbottom
  exact hnot (h rfl)

/-- Requests that are addressed to other nodes are used up when the entry before is right. -/
theorem wearsDown_strayEntry (h : Invariant c net) (hd : ∀ m ∈ net.msgs, Direct m)
    (hright : EntryRight net k v) :
  WearsDown (weightOf (StrayEntry v k)) net
  := by
  apply wearsDown_weightOf
  · intro i m peer peer' out hm hi hrec hlate
    generalize ho : some out = o at hrec
    cases hrec with
    | @forward s id frames hid hans =>
      cases ho
      obtain ⟨x, hbottom, -⟩ := hlate
      obtain ⟨f, frames, rfl⟩ := List.exists_cons_of_ne_nil (h.frames_ne_nil hm)
      rw [List.getLast?_cons_cons] at hbottom
      exact absurd (h.answers_direct hi (hd _ hm) hbottom) hans
    | @entry s n hops j hj =>
      split_ifs at ho with hlt
      cases ho
      refine absurd hlate (not_strayEntry ?_)
      intro hcb
      injection hcb with hval
      obtain rfl : j = k := Fin.ext (by omega)
      exact hright.reply hj i n hops hm
    | _ => cases ho <;> exact hlate.elim
  · intro i s s' sent hi hstart m hm
    cases hstart with
    | stabilise =>
      obtain rfl := List.mem_singleton.mp hm
      exact not_false
    | @updateSuccs j hj =>
      obtain rfl := List.mem_singleton.mp hm
      have hfirst : nodeFirstAliveSucc s = 0 := (h.running hi).firstAlive
      rw [hfirst] at hj
      apply not_strayEntry
      intro hcb
      injection hcb with hval
      obtain rfl : j = k := Fin.ext (by omega)
      exact (hright.entry i s hi).2
    | fixFingers =>
      obtain ⟨dest, j, -, rfl⟩ := eq_of_mem_route_fixFingers hm
      apply not_strayEntry
      rintro ⟨⟩
    | lookup hid hans =>
      obtain rfl := List.mem_singleton.mp hm
      apply not_strayEntry
      rintro ⟨⟩
    | answered => cases hm
  · intro i dest arg
    apply not_strayEntry
    rintro ⟨⟩

theorem not_late_of_fatal {late : Msg → Prop} {m : Msg}
    (hreq : ∀ dest id frames, ¬ late (.succRequest dest id frames)) (h : m.Fatal) :
  ¬ late m
  := by
  cases m with
  | succRequest dest id frames => exact hreq dest id frames
  | _ => exact h.elim

/-- What asks another node than the next one for its predecessor. -/
def StrayStabilise (J : Set HashType) : Msg → Prop
  | .predRequest dest f => ¬ Next J f.owner dest
  | _ => False

/-- What answers with another node than the one that asked. -/
def StrayAnswer : Msg → Prop
  | .predReply n _ f => n ≠ nullNode ∧ n.id ≠ f.owner
  | _ => False

/-- What notifies another node than the next one. -/
def StrayNotify (J : Set HashType) : Msg → Prop
  | .notify dest id _ => ¬ Next J id dest
  | _ => False

namespace Steady

variable {run : ℕ → Net} {T : ℕ} {J : Set HashType}

/-- Messages of a kind that wear down are used up. -/
theorem used_up (h : Steady c J run T) (late : Msg → Prop)
    (hsafe : ∀ n, ∀ m ∈ (run n).msgs, m.Fatal → ¬ late m)
    (hw : ∀ᶠ n in atTop, WearsDown (weightOf late) (run n)) :
  ∀ᶠ n in atTop, ∀ m ∈ (run n).msgs, ¬ late m
  := by
  have hzero := h.fair.wears_down h.invariant
    (fun n m hm hfatal => if_neg (hsafe n m hm hfatal)) hw
  apply hzero.mono
  intro n hn m hm hlate
  exact (weightOf_pos_iff.mpr hlate).ne' (hn m hm)

/-- In the end the requests for the entry `k + 1` are for the node in the entry `k`. -/
theorem entry_requests (h : Steady c J run T) (hright : ∀ᶠ n in atTop, EntryRight (run n) k v) :
  ∀ᶠ n in atTop, ∀ i dest id frames, .succRequest dest id frames ∈ (run n).msgs →
    frames.getLast? = some ⟨i, .updateSuccsFound (k.val + 1)⟩ → dest = v i
  := by
  have hgone := h.used_up (StrayEntry v k) (by
      intro n m hm hfatal hlate
      cases m with
      | succRequest dest id frames =>
        obtain ⟨i, hbottom, -⟩ := hlate
        obtain rfl : dest = id := hfatal
        have hid := (h.direct n _ hm i _ hbottom).1
        simp at hid
      | _ => exact hfatal)
    (hright.mono fun n hn => wearsDown_strayEntry (h.invariant n) (h.direct n) hn)
  apply hgone.mono
  intro n hn i dest id frames hm hbottom
  by_contra hne
  exact hn _ hm ⟨i, hbottom, hne⟩

/-- In the end a stabilisation asks the next node, -/
theorem pred_requests (h : Steady c J run T) :
  ∀ᶠ n in atTop, ∀ dest f, .predRequest dest f ∈ (run n).msgs → Next J f.owner dest
  := by
  have hgone := h.used_up (StrayStabilise J) (fun _ _ _ => not_late_of_fatal fun _ _ _ => not_false) (by
    apply (eventually_ge_atTop T).mono
    intro n hT
    refine wearsDown_weightOf ?_ ?_ fun _ _ _ => not_false
    · intro i m peer peer' out hm hi hr hout
      cases out with
      | predRequest dest f => exact absurd rfl (hr.ne_predRequest dest f)
      | _ => exact hout.elim
    · intro i s s' sent hs hstart m hm
      rcases hstart.request hm with rfl | ⟨dest, id, frames, rfl⟩
      · exact not_not.mpr (h.settled hT hs).succ_next
      · exact not_false)
  apply hgone.mono
  intro n hn dest f hm
  by_contra hnot
  exact hn _ hm hnot

/-- the next node answers with the one that asks, -/
theorem pred_replies (h : Steady c J run T) :
  ∀ᶠ n in atTop, ∀ node hops f, .predReply node hops f ∈ (run n).msgs →
    node = nullNode ∨ node.id = f.owner
  := by
  have hgone := h.used_up StrayAnswer (fun _ _ _ => not_late_of_fatal fun _ _ _ => not_false) (by
    apply (h.pred_requests.and (eventually_ge_atTop T)).mono
    rintro n ⟨hasks, hT⟩
    apply wearsDown_answers (fun _ _ _ => not_false) (fun _ _ => not_false)
    intro i m peer peer' out hm hi hr hout
    cases out with
    | predReply node hops f =>
      obtain ⟨s, rfl, rfl, rfl⟩ := hr.predReply_out
      obtain ⟨-, hhas, hprevious⟩ := h.ideal n hT i s hi
      rw [h.joined n hT] at hprevious
      have howner : f.owner ∈ J := h.joined n hT ▸ ((h.invariant n).msg _ hm).2.1
      have heq := hprevious.unique ((hasks i f hm).previous howner)
      have hanswer : predAnswer s = s.predecessor := by
        rw [predAnswer, if_pos hhas]
      exact absurd (hanswer ▸ heq) hout.2
    | _ => exact hout.elim)
  apply hgone.mono
  intro n hn node hops f hm
  by_contra hnot
  exact hn _ hm (not_or.mp hnot)

/-- and is notified. -/
theorem notifies (h : Steady c J run T) :
  ∀ᶠ n in atTop, ∀ dest id port, .notify dest id port ∈ (run n).msgs → Next J id dest
  := by
  have hgone := h.used_up (StrayNotify J) (fun _ _ _ => not_late_of_fatal fun _ _ _ => not_false) (by
    apply (h.pred_replies.and (eventually_ge_atTop T)).mono
    rintro n ⟨hanswers, hT⟩
    apply wearsDown_answers (fun _ _ _ => not_false) (fun _ _ => not_false)
    intro i m peer peer' out hm hi hr hout
    cases out with
    | notify dest id port =>
      obtain ⟨s, node, hops, rfl, rfl, rfl, rfl⟩ := hr.notify_out
      have hnext := (h.settled hT hi).succ_next
      have hself : s.self.id = id := (h.settled hT hi).self_id
      have hsame : (adopted s node).firstSucc.id = s.firstSucc.id := by
        by_cases hadopts : Adopts s node
        · obtain ⟨hsome, hwhere⟩ := adopts_iff.mp hadopts
          have hIP : node.IP ≠ 0 := by
            apply ((h.invariant n).predReply_IP hm).resolve_left
            rintro rfl
            simp [nullNode] at hsome
          have hid : node.id = id := by
            apply (hanswers node hops _ hm).resolve_left
            rintro rfl
            exact hIP rfl
          rw [adopted_firstSucc_of_adopts hIP hadopts, hid]
          rw [← hself, hwhere.resolve_right fun hne => hne.1 (hid.trans hself.symm)]
        · rw [adopted, if_neg hadopts]
      rw [← hsame] at hnext
      exact absurd hnext hout
    | _ => exact hout.elim)
  apply hgone.mono
  intro n hn dest id port hm
  by_contra hnot
  exact hn _ hm hnot

/-- In the end the network is calm. -/
theorem calm (h : Steady c J run T) :
  ∀ᶠ n in atTop, Calm c (run n)
  := by
  obtain ⟨f, hf⟩ := h.exists_follower
  have hrequests := eventually_all.mpr fun k => h.entry_requests (h.entries hf k)
  have hreplies : ∀ᶠ n in atTop, ∀ j k : Fin numOfSuccs, k.val = j.val + 1 →
      ∀ i node hops frames, .succReply node hops frames ∈ (run n).msgs →
        frames.getLast? = some ⟨i, .updateSuccsFound k.val⟩ → node.id = f^[k.val + 1] i := by
    rw [eventually_all]
    intro j
    rw [eventually_all]
    intro k
    by_cases hk : k.val = j.val + 1
    · apply (h.entry_replies (w := f^[k.val + 1]) _ hk (h.entries hf j)).mono
      · exact fun n hn _ => hn
      · intro i
        rw [hk, iterate_succ_apply' f (j.val + 1)]
        apply hf
    · exact Eventually.of_forall fun n heq => absurd heq hk
  apply ((h.succs.and (eventually_all.mpr (h.entries hf))).and ((hrequests.and hreplies).and
    ((h.pred_requests.and h.pred_replies).and (h.notifies.and (eventually_ge_atTop T))))).mono
  rintro n ⟨⟨hsuccs, hentries⟩, ⟨hrequests, hreplies⟩, ⟨hasks, hanswers⟩, hnotifies, hT⟩
  have hJ := h.joined n hT
  refine ⟨h.invariant n, ?_, ?_, ?_⟩
  · intro i s hs
    rw [hJ]
    exact hsuccs i s hs
  · intro i s hs _
    exact (h.ideal n hT i s hs).2.2.next ⟨s, hs⟩
  · intro m hm
    cases m with
    | succRequest dest id frames =>
      intro i s j k hk hbottom hs
      have hcast : ((k.val : ℕ) : ℤ) = j.val + 1 := by omega
      rw [hcast] at hbottom
      rw [hrequests j i dest id frames hm hbottom, ((hentries j).entry i s hs).2]
    | succReply node hops frames =>
      intro i s k hk hbottom hs
      have hpos := Nat.pos_of_ne_zero fun hz => hk (Fin.ext hz)
      have hlt := k.isLt
      obtain ⟨j, hj⟩ : ∃ j : Fin numOfSuccs, k.val = j.val + 1 :=
        ⟨⟨k.val - 1, by omega⟩, by dsimp only; omega⟩
      rw [hreplies j k hj i node hops frames hm hbottom, ((hentries k).entry i s hs).2]
    | predRequest dest f =>
      rw [Agrees, hJ]
      exact hasks dest f hm
    | predReply node hops f => exact hanswers node hops f hm
    | notify dest id port =>
      rw [Agrees, hJ]
      exact hnotifies dest id port hm

end Steady

/-- In a fair run in which the network is parted at some time there comes a time from which on
the network is calm, and nobody forwards requests for entries. -/
theorem Fair.becomes_calm {run : ℕ → Net} (h : Fair run) (h₀ : Reachable c (run 0))
    (hparted : ∃ n, Parted (run n)) :
  ∃ T, ∀ n ≥ T, Calm c (run n) ∧ ∀ m ∈ (run n).msgs, Direct m
  := by
  obtain ⟨T, hsteady⟩ := h.exists_steady h₀ hparted
  obtain ⟨T', hT'⟩ := eventually_atTop.mp hsteady.calm
  use T'
  intro n hn
  exact ⟨hT' n hn, hsteady.direct n⟩

/-- After the node `7` has joined, the network becomes calm. -/
theorem becomes_calm_third :
  ∃ run, run 0 = third ∧ Fair run
    ∧ ∃ T, ∀ n ≥ T, Calm 5 (run n) ∧ ∀ m ∈ (run n).msgs, Direct m
  := by
  obtain ⟨run, hzero, hfair⟩ := reachable_third.exists_fair
  exact ⟨run, hzero, hfair, hfair.becomes_calm (hzero ▸ reachable_third) ⟨0, hzero ▸ parted_third⟩⟩

end Net
