import LibDht.Node.Adopt

/-!
# Notifications

Every notification offers a node as predecessor, and the closest one is to win, whatever
the order they come in; the node itself, which notifies itself while it is its own
successor, is a full turn away. A notifying node is adopted when it lies on the arc from
the predecessor to the node. The arc is closed at both ends, so the node's own
notification is adopted too, over any predecessor, and those that came before it are
forgotten.
-/

open Circle

/-- The state of a node after notifications, in order. -/
def notifiedAll (s : NodeSelf) (ns : List NodeInfo) : NodeSelf :=
  ns.foldl nodeNotified s

/-- After the notifications the node has a predecessor, and it is the closest notifier. -/
structure ClosestWins (s : NodeSelf) (ns : List NodeInfo) : Prop where
  hasPred : (notifiedAll s ns).hasPred = true
  closest : Closest s.self.id (ns.map NodeInfo.id) (notifiedAll s ns).predecessor.id

/-- Every other notifier that came before the last notification by the node itself is
followed, after that one, by a notifier that is not farther. -/
def OutlivesOwn (o : HashType) (ns : List NodeInfo) : Prop :=
  ∀ a n b, ns = a ++ n :: b → n.id = o → (∀ m ∈ b, m.id ≠ o) →
    ∀ x ∈ a, x.id ≠ o → ∃ y ∈ b, lap y.id o ≤ lap x.id o

section

variable {s : NodeSelf} {n : NodeInfo}

/-! ### One notification -/

@[simp]
theorem nodeNotified_self (s : NodeSelf) (n : NodeInfo) :
  (nodeNotified s n).self = s.self
  := by
  rw [nodeNotified]
  split_ifs <;> rfl

@[simp]
theorem nodeNotified_hasPred (s : NodeSelf) (n : NodeInfo) :
  (nodeNotified s n).hasPred = true
  := by
  rw [nodeNotified]
  split_ifs with h
  · rfl
  · simp only [Bool.or_eq_true, Bool.not_eq_true', not_or, Bool.not_eq_false] at h
    exact h.1.1

/-- Without a predecessor the first one is adopted. -/
theorem nodeNotified_of_no_pred (h : s.hasPred = false) (n : NodeInfo) :
  (nodeNotified s n).predecessor = n
  := by
  rw [nodeNotified, if_pos (by simp [h])]

/-- The node's own notification is adopted over any predecessor, and that of another node when
it is not farther than the predecessor. -/
theorem nodeNotified_predecessor (h : s.hasPred = true) (n : NodeInfo) :
  (nodeNotified s n).predecessor
    = if n.id = s.self.id ∨ lap n.id s.self.id ≤ lap s.predecessor.id s.self.id then n
      else s.predecessor
  := by
  have hrule : (nodeIdInRange n.id s.predecessor.id s.self.id = true
      ∨ s.predecessor.id = s.self.id)
      ↔ n.id = s.self.id ∨ lap n.id s.self.id ≤ lap s.predecessor.id s.self.id := by
    rw [nodeIdInRange_iff]
    by_cases hown : s.predecessor.id = s.self.id
    · rw [hown, lap_self]
      exact iff_of_true (Or.inr rfl) (Or.inr (lap_le _ _))
    · rw [or_iff_left hown, clockwise_le_iff_lap hown]
  rw [nodeNotified]
  by_cases hadopt : n.id = s.self.id ∨ lap n.id s.self.id ≤ lap s.predecessor.id s.self.id
  · rw [if_pos hadopt, if_pos]
    simpa [h] using hrule.mpr hadopt
  · rw [if_neg hadopt, if_neg]
    simpa [h] using mt hrule.mp hadopt

theorem nodeNotified_own (h : n.id = s.self.id) :
  (nodeNotified s n).predecessor.id = s.self.id
  := by
  cases hpred : s.hasPred with
  | false => rw [nodeNotified_of_no_pred hpred, h]
  | true => rw [nodeNotified_predecessor hpred, if_pos (Or.inl h), h]

/-- After the notification of another node the predecessor is not the node itself. -/
theorem nodeNotified_ne_own (h : n.id ≠ s.self.id) :
  (nodeNotified s n).predecessor.id ≠ s.self.id
  := by
  cases hpred : s.hasPred with
  | false => rwa [nodeNotified_of_no_pred hpred]
  | true =>
    rw [nodeNotified_predecessor hpred]
    split_ifs with hadopt
    · exact h
    · intro hown
      apply hadopt
      rw [hown, lap_self]
      exact Or.inr (lap_le _ _)

/-! ### Sequences of notifications -/

theorem notifiedAll_append (s : NodeSelf) (a b : List NodeInfo) :
  notifiedAll s (a ++ b) = notifiedAll (notifiedAll s a) b
  := List.foldl_append ..

@[simp]
theorem notifiedAll_self (s : NodeSelf) (ns : List NodeInfo) :
  (notifiedAll s ns).self = s.self
  := by
  induction ns generalizing s with
  | nil => rfl
  | cons n ns ih =>
    rw [notifiedAll, List.foldl_cons]
    exact (ih (nodeNotified s n)).trans (nodeNotified_self s n)

theorem notifiedAll_hasPred (s : NodeSelf) {ns : List NodeInfo} (hne : ns ≠ []) :
  (notifiedAll s ns).hasPred = true
  := by
  obtain rfl | ⟨a, n, rfl⟩ := List.eq_nil_or_concat' ns
  · exact absurd rfl hne
  · rw [notifiedAll_append]
    apply nodeNotified_hasPred

/-- As long as the node itself does not notify, the closest one so far stays predecessor. -/
theorem closest_notifiedAll {l : List HashType} (hpred : s.hasPred = true)
    (h : Closest s.self.id l s.predecessor.id) {ns : List NodeInfo}
    (hown : ∀ n ∈ ns, n.id ≠ s.self.id) :
  Closest s.self.id (l ++ ns.map NodeInfo.id) (notifiedAll s ns).predecessor.id
  := by
  induction ns generalizing s l with
  | nil => simpa [notifiedAll] using h
  | cons n ns ih =>
    have hstep : Closest s.self.id (l ++ [n.id]) (nodeNotified s n).predecessor.id := by
      rw [nodeNotified_predecessor hpred]
      split_ifs with hadopt
      · exact h.append_of_le (hadopt.resolve_left (hown n List.mem_cons_self))
      · exact h.append_of_lt (not_le.mp (not_or.mp hadopt).2)
    have hrest := ih (s := nodeNotified s n) (nodeNotified_hasPred s n)
      (by rw [nodeNotified_self]; exact hstep)
      (fun m hm => by rw [nodeNotified_self]; exact hown m (List.mem_cons_of_mem n hm))
    rw [nodeNotified_self, List.append_assoc] at hrest
    exact hrest

/-- Without notifications by the node itself the closest notifier wins. -/
theorem closest_of_no_own (hpred : s.hasPred = false) {ns : List NodeInfo} (hne : ns ≠ [])
    (hown : ∀ n ∈ ns, n.id ≠ s.self.id) :
  Closest s.self.id (ns.map NodeInfo.id) (notifiedAll s ns).predecessor.id
  := by
  cases ns with
  | nil => exact absurd rfl hne
  | cons n ns =>
    have hfirst : Closest (nodeNotified s n).self.id [n.id] (nodeNotified s n).predecessor.id := by
      rw [nodeNotified_of_no_pred hpred]
      apply Closest.singleton
    have hrest := closest_notifiedAll (nodeNotified_hasPred s n) hfirst
      (fun m hm => by rw [nodeNotified_self]; exact hown m (List.mem_cons_of_mem n hm))
    rwa [nodeNotified_self] at hrest

/-- The last notification by the node itself wipes out those before it: the closest of what
comes after it wins, or else the node itself. -/
theorem closest_after_own {a b : List NodeInfo} (hn : n.id = s.self.id)
    (hown : ∀ m ∈ b, m.id ≠ s.self.id) :
  Closest s.self.id (s.self.id :: b.map NodeInfo.id) (notifiedAll s (a ++ n :: b)).predecessor.id
  := by
  have hself : (notifiedAll s a).self = s.self := notifiedAll_self s a
  rw [notifiedAll_append]
  generalize notifiedAll s a = t at hself
  rw [← hself] at hn hown ⊢
  have hfirst : Closest (nodeNotified t n).self.id [t.self.id] (nodeNotified t n).predecessor.id := by
    rw [nodeNotified_own hn]
    apply Closest.singleton
  have hrest := closest_notifiedAll (nodeNotified_hasPred t n) hfirst
    (fun m hm => by rw [nodeNotified_self]; exact hown m hm)
  rwa [nodeNotified_self] at hrest

/-- A list with a notification by the node itself has a last one. -/
theorem exists_last_own {o : HashType} {ns : List NodeInfo} (h : ∃ n ∈ ns, n.id = o) :
  ∃ a n b, ns = a ++ n :: b ∧ n.id = o ∧ ∀ m ∈ b, m.id ≠ o
  := by
  induction ns with
  | nil => simp at h
  | cons x ns ih =>
    by_cases hlater : ∃ n ∈ ns, n.id = o
    · obtain ⟨a, n, b, rfl, hn, hb⟩ := ih hlater
      exact ⟨x :: a, n, b, rfl, hn, hb⟩
    · have hb : ∀ m ∈ ns, m.id ≠ o := fun m hm hmo => hlater ⟨m, hm, hmo⟩
      obtain ⟨n, hn, hno⟩ := h
      rcases List.mem_cons.mp hn with rfl | hn
      · exact ⟨[], n, ns, rfl, hno, hb⟩
      · exact absurd hno (hb n hn)

/-- The closest notifier wins exactly when those that came before the node's own last
notification are made up for after it. -/
theorem closestWins_iff (hpred : s.hasPred = false) {ns : List NodeInfo} (hne : ns ≠ []) :
  ClosestWins s ns ↔ OutlivesOwn s.self.id ns
  := by
  constructor
  · rintro ⟨-, hclosest⟩ a n b rfl hn hb x hx hxo
    have hle := hclosest.le x.id (List.mem_map_of_mem (List.mem_append_left _ hx))
    have hlast := (closest_after_own (a := a) hn hb).mem
    generalize (notifiedAll s (a ++ n :: b)).predecessor.id = m at hle hlast
    have hlt := lt_of_le_of_lt hle (lap_lt_iff.mpr hxo)
    obtain ⟨y, hy, rfl⟩ := List.mem_map.mp
      ((List.mem_cons.mp hlast).resolve_left (lap_lt_iff.mp hlt))
    exact ⟨y, hy, hle⟩
  · intro h
    use notifiedAll_hasPred s hne
    by_cases hown : ∃ n ∈ ns, n.id = s.self.id
    · obtain ⟨a, n, b, rfl, hn, hb⟩ := exists_last_own hown
      have hlast := closest_after_own (a := a) hn hb
      constructor
      · rcases List.mem_cons.mp hlast.mem with heq | hmem
        · rw [heq, ← hn]
          simp
        · simp only [List.map_append, List.map_cons]
          exact List.mem_append_right _ (List.mem_cons_of_mem _ hmem)
      · intro id hid
        obtain ⟨x, hx, rfl⟩ := List.mem_map.mp hid
        by_cases hxo : x.id = s.self.id
        · rw [hxo, lap_self]
          apply lap_le
        · rcases List.mem_append.mp hx with hx | hx
          · obtain ⟨y, hy, hle⟩ := h a n b rfl hn hb x hx hxo
            exact (hlast.le y.id (List.mem_cons_of_mem _ (List.mem_map_of_mem hy))).trans hle
          · rcases List.mem_cons.mp hx with rfl | hx
            · exact absurd hn hxo
            · exact hlast.le x.id (List.mem_cons_of_mem _ (List.mem_map_of_mem hx))
    · apply closest_of_no_own hpred hne
      exact fun n hn hno => hown ⟨n, hn, hno⟩

/-- All orders of the same notifications end with the same predecessor exactly when the node
itself is not among the notifiers, or nobody else is. -/
theorem order_irrelevant_iff (hpred : s.hasPred = false) {ns : List NodeInfo} (hne : ns ≠ []) :
  (∀ ns', ns.Perm ns' →
      (notifiedAll s ns').predecessor.id = (notifiedAll s ns).predecessor.id)
    ↔ (∀ n ∈ ns, n.id ≠ s.self.id) ∨ ∀ n ∈ ns, n.id = s.self.id
  := by
  -- any of the notifiers may come last
  have hlast : ∀ n ∈ ns, ∃ a, ns.Perm (a ++ [n])
      ∧ (notifiedAll s (a ++ [n])).predecessor = (nodeNotified (notifiedAll s a) n).predecessor := by
    intro n hn
    obtain ⟨a, b, rfl⟩ := List.append_of_mem hn
    refine ⟨a ++ b, ?_, by rw [notifiedAll_append]; rfl⟩
    rw [List.append_assoc]
    exact (List.perm_append_singleton n b).symm.append_left a
  constructor
  · intro h
    by_contra hmixed
    obtain ⟨hown, hother⟩ := not_or.mp hmixed
    push Not at hown hother
    obtain ⟨n, hn, hno⟩ := hown
    obtain ⟨x, hx, hxo⟩ := hother
    obtain ⟨a, ha, hn'⟩ := hlast n hn
    obtain ⟨c, hc, hx'⟩ := hlast x hx
    have hsame := (h _ ha).trans (h _ hc).symm
    rw [hn', hx', nodeNotified_own (by rw [notifiedAll_self]; exact hno)] at hsame
    exact nodeNotified_ne_own (by rw [notifiedAll_self]; exact hxo)
      (hsame.symm.trans (by rw [notifiedAll_self, notifiedAll_self]))
  · intro h ns' hperm
    have hne' : ns' ≠ [] := fun hnil => hne (List.perm_nil.mp (hnil ▸ hperm))
    rcases h with hown | hown
    · have hclosest := closest_of_no_own hpred hne hown
      have hclosest' := closest_of_no_own hpred hne' fun n hn => hown n (hperm.mem_iff.mpr hn)
      exact hclosest'.unique (hclosest.perm (hperm.map NodeInfo.id))
    · have hend : ∀ l, l ≠ [] → (∀ n ∈ l, n.id = s.self.id) →
          (notifiedAll s l).predecessor.id = s.self.id := by
        intro l hl hall
        obtain rfl | ⟨a, n, rfl⟩ := List.eq_nil_or_concat' l
        · exact absurd rfl hl
        · have hn : n.id = (notifiedAll s a).self.id := by
            rw [notifiedAll_self]
            exact hall n (by simp)
          rw [notifiedAll_append]
          exact (nodeNotified_own hn).trans (by rw [notifiedAll_self])
      rw [hend ns hne hown, hend ns' hne' fun n hn => hown n (hperm.mem_iff.mpr hn)]

/-- What notifications come to: when the closest one wins, and when the order does not
matter. -/
theorem notified_closest_iff (hpred : s.hasPred = false) {ns : List NodeInfo} (hne : ns ≠ []) :
  (ClosestWins s ns ↔ OutlivesOwn s.self.id ns)
    ∧ ((∀ ns', ns.Perm ns' →
        (notifiedAll s ns').predecessor.id = (notifiedAll s ns).predecessor.id)
      ↔ (∀ n ∈ ns, n.id ≠ s.self.id) ∨ ∀ n ∈ ns, n.id = s.self.id)
  := ⟨closestWins_iff hpred hne, order_irrelevant_iff hpred hne⟩

end

/-- A node without a predecessor. -/
def unpreceded : NodeSelf :=
  { NodeSelf.blank with self := { id := 1, IP := 0x7F000001, port := 1 } }

/-- A notifying node. -/
def notifier (id : HashType) : NodeInfo :=
  { id := id, IP := 1, port := 1 }

theorem notified_closest_iff_ownFirst :
  (ClosestWins unpreceded [notifier 1, notifier 10]
      ↔ OutlivesOwn unpreceded.self.id [notifier 1, notifier 10])
    ∧ ((∀ ns', [notifier 1, notifier 10].Perm ns' →
        (notifiedAll unpreceded ns').predecessor.id
          = (notifiedAll unpreceded [notifier 1, notifier 10]).predecessor.id)
      ↔ (∀ n ∈ [notifier 1, notifier 10], n.id ≠ unpreceded.self.id)
        ∨ ∀ n ∈ [notifier 1, notifier 10], n.id = unpreceded.self.id)
  := notified_closest_iff rfl (List.cons_ne_nil _ _)

/-- The node's own notification takes the place of a closer node. -/
theorem own_notification_displaces :
  ¬ ∀ (s : NodeSelf) (ns : List NodeInfo), s.hasPred = false → ns ≠ [] →
    ClosestWins s ns ∧ ∀ ns', ns.Perm ns' →
      (notifiedAll s ns').predecessor.id = (notifiedAll s ns).predecessor.id
  := by
  intro h
  obtain ⟨⟨-, hclosest⟩, -⟩ := h unpreceded [notifier 10, notifier 1] rfl (List.cons_ne_nil _ _)
  have hle := hclosest.le 10 (by decide)
  revert hle
  decide
