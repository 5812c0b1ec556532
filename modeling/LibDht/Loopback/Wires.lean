import LibDht.Loopback.Table
import LibDht.Net.Hops

/-!
# What is on the wires

The connections of all nodes are told apart by their ends: a node, and the serial of the
connection there. Bytes on a connection mean a message, and besides the bytes one has to
know who waits for the reply: those are kept here for every connection that is made, together
with the messages in flight, each with the connection it is on.

`Wired` says that these fit together. A request that has not arrived is a message in flight;
so is a reply that has not been read. What a node does for a request that came in on a
connection is to make one other connection at most, and those who wait for the reply on it
are the one that made the first and those who wait for the reply on that. It is kept when a
connection is made, taken, written to or closed, and when a request arrives.
-/

open Function

/-- One end of a connection: the node, and the serial of the connection there. -/
abbrev Endpoint : Type :=
  HashType × ℕ

namespace Link

/-- The end at the client. -/
def near (l : Link) : Endpoint :=
  (l.client, l.made)

/-- The end at the server. -/
def far (l : Link) : Option Endpoint :=
  l.taken.map (Prod.mk l.server)

end Link

/-- The connection that a message is on, by the end at the client, and whether it is a reply. -/
structure Ticket where
  conn : Endpoint
  back : Bool
  deriving DecidableEq, Repr

/-- The connections by their ends, those who wait for the reply on a connection besides the
one that made it, and the messages in flight. Those that have no ticket will not arrive. -/
structure Wires where
  conn : Endpoint → Option Conn
  frames : Endpoint → List Frame
  msgs : List (Option Ticket × Msg)

/-- The callback, as those who wait for a reply are told apart by: of the one that answers a
request nothing but this is kept. -/
def FoundCb.masked : FoundCb → FoundCb
  | .successorFoundForRemote _ => relay
  | cb => cb

namespace Purpose

/-- The message that the request is, when the node `i` sends it to `d` and `frames` wait for
the reply besides. -/
def asks (i d : HashType) (frames : List Frame) : Purpose → Option Msg
  | .lookup id data => some (.succRequest d id ({ owner := i, cb := data.cb.masked } :: frames))
  | .predecessor data => some (.predRequest d { owner := i, cb := data.cb.masked })
  | .probe _ => none
  | .notify id port => some (.notify d id port)

/-- The message that the reply is to the node `i`. -/
def returns (i : HashType) (n : NodeInfo) (hops : Int16) (frames : List Frame) :
    Purpose → Option Msg
  | .lookup _ data => some (.succReply n hops ({ owner := i, cb := data.cb.masked } :: frames))
  | .predecessor data => some (.predReply n hops { owner := i, cb := data.cb.masked })
  | .probe _ | .notify _ _ => none

end Purpose

namespace Wires

/-- The connections of the node `i`. -/
def row (W : Wires) (i : HashType) (s : ℕ) : Option Conn :=
  W.conn (i, s)

/-- The messages are `xs`. -/
def carry (W : Wires) (xs : List (Option Ticket × Msg)) : Wires :=
  { W with msgs := xs }

/-- The connection with the end `e` is `x`, and the messages are `xs`. -/
def put (W : Wires) (e : Endpoint) (x : Option Conn) (xs : List (Option Ticket × Msg)) : Wires where
  conn := update W.conn e x
  frames := W.frames
  msgs := xs

/-- The connection with the end `e` has been made, and `fs` wait for the reply besides. -/
def opened (W : Wires) (e : Endpoint) (u : Purpose) (sin : UInt32 × UInt16) (fs : List Frame)
    (xs : List (Option Ticket × Msg)) : Wires where
  conn := update W.conn e (some (.made u sin))
  frames := update W.frames e fs
  msgs := xs

/-- At `e` a node waits for a reply, and `data` is what the reply is filled in. -/
def Awaits (W : Wires) (e : Endpoint) (data : NodeFoundCbData) : Prop :=
  ∃ u sin, W.conn e = some (.made u sin) ∧ u.found = some data

/-- For the request on the connection with the end `t` the node has asked another one. -/
def Pending (W : Wires) (t : Endpoint) : Prop :=
  ∃ s data j, W.Awaits (t.1, s) data ∧ data.cb = answerTo j t.2

/-- The node `i` may ask another one for the request on a connection that it has accepted: the
request is a lookup, it has arrived and is not answered, and `fs` wait for the reply. -/
def Forwards (W : Wires) (links : List Link) (i : HashType) (fs : List Frame)
    (d : IncomingHandlerData) : Prop :=
  ∃ l ∈ links, ∃ v j id data sin, d = { connection := j.val, asker := some v }
    ∧ l.far = some (i, v) ∧ l.asked = true ∧ W.conn (i, v) = some (.taken j [])
    ∧ W.conn l.near = some (.made (.lookup id data) sin)
    ∧ fs = { owner := l.client, cb := data.cb.masked } :: W.frames l.near

/-- The client at `e`, as long as it waits, reads what it is told in a message when it reads
`out`. -/
def Reads (W : Wires) (e : Endpoint) (out : List UInt8) : Prop :=
  ∀ u sin, W.conn e = some (.made u sin) →
    (∃ cb tail, u = .probe cb ∧ out = aliveReply tail)
    ∨ ∃ data n hops m, u.found = some data
      ∧ (∀ byte, readFound (data.node, data.hops) byte out = (n, hops))
      ∧ u.returns e.1 n hops (W.frames e) = some m ∧ (some { conn := e, back := true }, m) ∈ W.msgs

end Wires

/-- Connections, links and messages fit together. Serials from `next` on have not been given. -/
structure Wired (port : HashType → UInt16) (next : HashType → ℕ) (links : List Link)
    (W : Wires) : Prop where
  lt : ∀ e x, W.conn e = some x → e.2 < next e.1
  near_lt : ∀ l ∈ links, l.near.2 < next l.near.1
  far_lt : ∀ l ∈ links, ∀ t, l.far = some t → t.2 < next t.1
  near_inj : ∀ l ∈ links, ∀ l' ∈ links, l.near = l'.near → l = l'
  far_inj : ∀ l ∈ links, ∀ l' ∈ links, ∀ t, l.far = some t → l'.far = some t → l = l'
  near : ∀ l ∈ links, ∀ x, W.conn l.near = some x → ∃ u, x = .made u (0x7F000001, port l.server)
  far : ∀ l ∈ links, ∀ t x, l.far = some t → W.conn t = some x → ∃ j out, x = .taken j out
  quiet : ∀ l ∈ links, ∀ t, l.asked = false → l.far = some t →
    ¬ W.Pending t ∧ ∀ j out, W.conn t = some (.taken j out) → out = []
  own : ∀ e data, W.Awaits e data → (∀ d, data.cb ≠ .successorFoundForRemote d) → W.frames e = []
  forwards : ∀ e data d, W.Awaits e data → data.cb = .successorFoundForRemote d →
    W.Forwards links e.1 (W.frames e) d
  once : ∀ i s s' v j j' data data', W.Awaits (i, s) data → data.cb = answerTo j v →
    W.Awaits (i, s') data' → data'.cb = answerTo j' v → s = s'
  request : ∀ e u sin, W.conn e = some (.made u sin) → (∀ l ∈ links, l.near = e → l.asked = false) →
    (∃ cb, u = .probe cb)
    ∨ ∃ d m, sin = (0x7F000001, port d) ∧ u.asks e.1 d (W.frames e) = some m
      ∧ (some { conn := e, back := false }, m) ∈ W.msgs
  reply : ∀ l ∈ links, ∀ t j out, l.far = some t → W.conn t = some (.taken j out) → out ≠ [] →
    W.Reads l.near out

namespace Wires

variable {W W' : Wires} {links links' : List Link} {i : HashType} {e t : Endpoint}
  {x : Option Conn} {xs : List (Option Ticket × Msg)} {u : Purpose} {sin : UInt32 × UInt16}
  {fs : List Frame} {data : NodeFoundCbData} {d : IncomingHandlerData} {out : List UInt8}

/-! ### The connections of a node -/

theorem row_put (s : ℕ) :
  (W.put (i, s) x xs).row i = update (W.row i) s x
  := by
  funext r
  rw [row, put]
  dsimp only
  by_cases hr : r = s
  · subst hr
    rw [update_self, update_self]
  · have hne : ((i, r) : Endpoint) ≠ (i, s) := fun h => hr (congrArg Prod.snd h)
    rw [update_of_ne hr, update_of_ne hne, row]

theorem row_put_of_ne (h : i ≠ e.1) :
  (W.put e x xs).row i = W.row i
  := by
  funext r
  apply update_of_ne
  intro heq
  exact h (congrArg Prod.fst heq)

theorem row_opened (s : ℕ) :
  (W.opened (i, s) u sin fs xs).row i = update (W.row i) s (some (.made u sin))
  := by
  have hput : (W.put (i, s) (some (.made u sin)) xs).row i = _ := row_put s
  apply hput

theorem row_opened_of_ne (h : i ≠ e.1) :
  (W.opened e u sin fs xs).row i = W.row i
  := by
  have hput : (W.put e (some (.made u sin)) xs).row i = _ := row_put_of_ne h
  apply hput

/-! ### What stays the same -/

/-- The answer to a request that was forwarded is still waited for in the same way. -/
theorem Forwards.mono (h : W.Forwards links i fs d)
    (hlinks : ∀ l ∈ links, l.asked = true → l ∈ links')
    (hkeep : ∀ l ∈ links, ∀ v, d.asker = some v → l.far = some (i, v) →
      W'.conn (i, v) = W.conn (i, v) ∧ W'.conn l.near = W.conn l.near
        ∧ W'.frames l.near = W.frames l.near) :
  W'.Forwards links' i fs d
  := by
  obtain ⟨l, hl, v, j, id, data, sin, rfl, hfar, hasked, htaken, hnear, hfs⟩ := h
  obtain ⟨hconn, hconn', hframes⟩ := hkeep l hl v rfl hfar
  use l, hlinks l hl hasked, v, j, id, data, sin, rfl, hfar, hasked
  rw [hconn, hconn', hframes]
  use htaken, hnear

/-- A reply that has not been read is read in the same way. -/
theorem Reads.mono (h : W.Reads e out) (hconn : W'.conn e = W.conn e)
    (hframes : W'.frames e = W.frames e)
    (hmsgs : ∀ m, (some { conn := e, back := true }, m) ∈ W.msgs →
      (some { conn := e, back := true }, m) ∈ W'.msgs) :
  W'.Reads e out
  := by
  intro u sin hu
  rw [hconn] at hu
  rcases h u sin hu with hprobe | ⟨data, n, hops, m, hfound, hread, hm, hin⟩
  · left
    apply hprobe
  · right
    use data, n, hops, m, hfound, hread
    rw [hframes]
    use hm, hmsgs m hin

end Wires

/-! ### What changes -/

namespace Wires

variable {W : Wires} {links : List Link} {e t r : Endpoint} {x : Option Conn}
  {xs : List (Option Ticket × Msg)} {u : Purpose} {sin : UInt32 × UInt16} {fs : List Frame}
  {data : NodeFoundCbData} {y : Conn}

theorem conn_put_self :
  (W.put t x xs).conn t = x
  := update_self ..

theorem conn_put_of_ne (h : e ≠ t) :
  (W.put t x xs).conn e = W.conn e
  := update_of_ne h ..

theorem awaits_put (hx : ∀ u sin, x ≠ some (.made u sin)) :
  (W.put t x xs).Awaits e data ↔ e ≠ t ∧ W.Awaits e data
  := by
  by_cases h : e = t
  · subst h
    constructor
    · rintro ⟨u, sin, hu, -⟩
      rw [conn_put_self] at hu
      exact absurd hu (hx u sin)
    · rintro ⟨hne, -⟩
      exact absurd rfl hne
  · rw [Awaits, conn_put_of_ne h, Awaits]
    constructor
    · intro hawaits
      use h
    · intro hawaits
      apply hawaits.2

theorem Pending.of_put (hx : ∀ u sin, x ≠ some (.made u sin)) (h : (W.put t x xs).Pending r) :
  W.Pending r
  := by
  obtain ⟨s, data, j, hawaits, hcb⟩ := h
  use s, data, j, ((awaits_put hx).mp hawaits).2, hcb

theorem conn_opened_self :
  (W.opened t u sin fs xs).conn t = some (.made u sin)
  := update_self ..

theorem conn_opened_of_ne (h : e ≠ t) :
  (W.opened t u sin fs xs).conn e = W.conn e
  := update_of_ne h ..

theorem frames_opened_self :
  (W.opened t u sin fs xs).frames t = fs
  := update_self ..

theorem frames_opened_of_ne (h : e ≠ t) :
  (W.opened t u sin fs xs).frames e = W.frames e
  := update_of_ne h ..

theorem awaits_opened :
  (W.opened t u sin fs xs).Awaits e data
    ↔ e = t ∧ u.found = some data ∨ e ≠ t ∧ W.Awaits e data
  := by
  by_cases h : e = t
  · subst h
    rw [Awaits, conn_opened_self]
    constructor
    · rintro ⟨u', sin', hu, hfound⟩
      cases hu
      exact Or.inl ⟨rfl, hfound⟩
    · rintro (⟨-, hfound⟩ | ⟨hne, -⟩)
      · exact ⟨u, sin, rfl, hfound⟩
      · exact absurd rfl hne
  · rw [Awaits, conn_opened_of_ne h, Awaits]
    constructor
    · intro hawaits
      right
      use h
    · rintro (⟨heq, -⟩ | ⟨-, hawaits⟩)
      · exact absurd heq h
      · apply hawaits

end Wires

namespace Wired

variable {port : HashType → UInt16} {next next' : HashType → ℕ} {links : List Link} {W : Wires}
  {l : Link} {e t : Endpoint} {x : Option Conn} {xs : List (Option Ticket × Msg)}
  {data : NodeFoundCbData} {d : IncomingHandlerData}

/-- More serials are given. -/
theorem of_le (h : Wired port next links W) (hle : ∀ i, next i ≤ next' i) :
  Wired port next' links W
  := { h with
    lt := fun e x hx => (h.lt e x hx).trans_le (hle e.1)
    near_lt := fun l hl => (h.near_lt l hl).trans_le (hle l.near.1)
    far_lt := fun l hl t ht => (h.far_lt l hl t ht).trans_le (hle t.1) }

/-- A serial that has not been given is that of no connection. -/
theorem fresh (h : Wired port next links W) (he : next e.1 ≤ e.2) :
  W.conn e = none ∧ (∀ l ∈ links, l.near ≠ e) ∧ ∀ l ∈ links, l.far ≠ some e
  := by
  refine ⟨?_, ?_, ?_⟩
  · cases hx : W.conn e with
    | none => rfl
    | some x => exact absurd (h.lt e x hx) (not_lt.mpr he)
  · rintro l hl rfl
    exact absurd (h.near_lt l hl) (not_lt.mpr he)
  · intro l hl hfar
    exact absurd (h.far_lt l hl e hfar) (not_lt.mpr he)

/-- A request that was forwarded came in on a connection that is still there. -/
theorem of_pending (h : Wired port next links W) (ht : W.Pending t) :
  ∃ l ∈ links, l.far = some t ∧ l.asked = true ∧ ∃ j, W.conn t = some (.taken j [])
  := by
  obtain ⟨s, data, j, hawaits, hcb⟩ := ht
  obtain ⟨l, hl, v, j', -, -, -, hd, hfar, hasked, htaken, -⟩ := h.forwards _ data _ hawaits hcb
  obtain rfl : t.2 = v := Option.some.inj (congrArg IncomingHandlerData.asker hd)
  exact ⟨l, hl, hfar, hasked, j', htaken⟩

/-- The end `e` is that of another connection than the request and the forwarded request, when
nothing is forwarded for the links at `e`. -/
theorem forwards_ne (h : Wired port next links W)
    (hpend : ∀ l ∈ links, l.near = t ∨ l.far = some t → ∀ r, l.far = some r → ¬ W.Pending r)
    (hawaits : W.Awaits e data) (hcb : data.cb = .successorFoundForRemote d) {v : ℕ}
    (hv : d.asker = some v) (hl : l ∈ links) (hfar : l.far = some (e.1, v)) :
  (e.1, v) ≠ t ∧ l.near ≠ t
  := by
  have hpending : W.Pending (e.1, v) := by
    obtain ⟨l', -, v', j, -, -, -, rfl, -⟩ := h.forwards e data d hawaits hcb
    obtain rfl := Option.some.inj hv
    use e.2, data, j
    use hawaits, hcb
  constructor
  · intro heq
    exact hpend l hl (Or.inr (hfar.trans (congrArg some heq))) _ hfar hpending
  · intro hnear
    exact hpend l hl (Or.inl hnear) _ hfar hpending

/-- A connection that is not made by the node changes: it is taken, written to, or closed. -/
theorem put (h : Wired port next links W) (e : Endpoint) (x : Option Conn)
    (xs : List (Option Ticket × Msg)) (hx : ∀ y, x = some y → ∃ j out, y = .taken j out)
    (hlt : x ≠ none → e.2 < next e.1 ∧ ∀ l ∈ links, l.near ≠ e)
    (hpend : ∀ l ∈ links, l.near = e ∨ l.far = some e → ∀ t, l.far = some t → ¬ W.Pending t)
    (hmsgs : ∀ t m, t.conn ≠ e → (some t, m) ∈ W.msgs → (some t, m) ∈ xs)
    (hout : ∀ l ∈ links, l.far = some e → ∀ j out, x = some (.taken j out) → out ≠ [] →
      l.asked = true ∧ (W.carry xs).Reads l.near out) :
  Wired port next links (W.put e x xs)
  := by
  have hmade : ∀ u sin, x ≠ some (.made u sin) := by
    rintro u sin rfl
    obtain ⟨j, out, hy⟩ := hx _ rfl
    cases hy
  refine ⟨?lt, h.near_lt, h.far_lt, h.near_inj, h.far_inj, ?near, ?far, ?quiet, ?own, ?forwards,
    ?once, ?request, ?reply⟩
  case lt =>
    intro e' y hy
    by_cases he : e' = e
    · subst he
      rw [Wires.conn_put_self] at hy
      exact (hlt (by rw [hy]; apply Option.some_ne_none)).1
    · rw [Wires.conn_put_of_ne he] at hy
      apply h.lt e' y hy
  case near =>
    intro l hl y hy
    by_cases he : l.near = e
    · rw [he, Wires.conn_put_self] at hy
      exact absurd he ((hlt (by rw [hy]; apply Option.some_ne_none)).2 l hl)
    · rw [Wires.conn_put_of_ne he] at hy
      apply h.near l hl y hy
  case far =>
    intro l hl t y hfar hy
    by_cases he : t = e
    · subst he
      rw [Wires.conn_put_self] at hy
      apply hx y hy
    · rw [Wires.conn_put_of_ne he] at hy
      apply h.far l hl t y hfar hy
  case quiet =>
    intro l hl t hasked hfar
    obtain ⟨hpending, hempty⟩ := h.quiet l hl t hasked hfar
    use fun ht => hpending (ht.of_put hmade)
    intro j out hy
    by_cases he : t = e
    · subst he
      rw [Wires.conn_put_self] at hy
      by_contra hne
      obtain ⟨htrue, -⟩ := hout l hl hfar j out hy hne
      rw [hasked] at htrue
      cases htrue
    · rw [Wires.conn_put_of_ne he] at hy
      apply hempty j out hy
  case own =>
    intro e' data hawaits
    apply h.own e' data ((Wires.awaits_put hmade).mp hawaits).2
  case forwards =>
    intro e' data d hawaits hcb
    obtain ⟨-, hawaits⟩ := (Wires.awaits_put hmade).mp hawaits
    apply (h.forwards e' data d hawaits hcb).mono (fun l hl _ => hl)
    intro l hl v hv hfar
    obtain ⟨hne, hnear⟩ := h.forwards_ne hpend hawaits hcb hv hl hfar
    exact ⟨Wires.conn_put_of_ne hne, Wires.conn_put_of_ne hnear, rfl⟩
  case once =>
    intro i s s' v j j' data data' hs hcb hs' hcb'
    apply h.once i s s' v j j' data data' ((Wires.awaits_put hmade).mp hs).2 hcb
      ((Wires.awaits_put hmade).mp hs').2 hcb'
  case request =>
    intro e' u sin hu hasked
    by_cases he : e' = e
    · subst he
      rw [Wires.conn_put_self] at hu
      exact absurd hu (hmade u sin)
    · rw [Wires.conn_put_of_ne he] at hu
      rcases h.request e' u sin hu hasked with hprobe | ⟨d, m, hsin, hm, hin⟩
      · left
        apply hprobe
      · right
        exact ⟨d, m, hsin, hm, hmsgs _ m he hin⟩
  case reply =>
    intro l hl t j out hfar hy hne
    by_cases hnear : l.near = e
    · intro u sin hu
      rw [hnear, Wires.conn_put_self] at hu
      exact absurd hu (hmade u sin)
    · have hreads : (W.carry xs).Reads l.near out := by
        by_cases he : t = e
        · subst he
          rw [Wires.conn_put_self] at hy
          exact (hout l hl hfar j out hy hne).2
        · rw [Wires.conn_put_of_ne he] at hy
          refine (h.reply l hl t j out hfar hy hne).mono rfl rfl ?_
          intro m hm
          apply hmsgs _ m hnear hm
      exact hreads.mono (Wires.conn_put_of_ne hnear) rfl (fun m hm => hm)

/-- A connection is closed. The messages on it will not arrive any more. -/
theorem close (h : Wired port next links W) (e : Endpoint) {xs : List (Option Ticket × Msg)}
    (hpend : ∀ l ∈ links, l.near = e ∨ l.far = some e → ∀ t, l.far = some t → ¬ W.Pending t)
    (hmsgs : ∀ t m, t.conn ≠ e → (some t, m) ∈ W.msgs → (some t, m) ∈ xs) :
  Wired port next links (W.put e none xs)
  := by
  apply h.put e none xs _ _ hpend hmsgs
  · intro l hl hfar j out hy
    cases hy
  · intro y hy
    cases hy
  · intro hne
    exact absurd rfl hne

/-- The answer to a request is written. -/
theorem write (h : Wired port next links W) (hl : l ∈ links) (hasked : l.asked = true)
    (hfar : l.far = some t) {j : Fin maxOpenConnections} {old out : List UInt8}
    (hconn : W.conn t = some (.taken j old)) (hpend : ¬ W.Pending t)
    (hmsgs : ∀ y ∈ W.msgs, y ∈ xs) (hreads : (W.carry xs).Reads l.near out) :
  Wired port next links (W.put t (some (.taken j out)) xs)
  := by
  have hnear : ∀ l' ∈ links, l'.near ≠ t := by
    intro l' hl' heq
    obtain ⟨u, hu⟩ := h.near l' hl' (.taken j old) (by rw [heq, hconn])
    cases hu
  apply h.put t _ xs
  · intro y hy
    cases hy
    exact ⟨j, out, rfl⟩
  · intro _
    use h.lt t _ hconn, hnear
  · intro l' hl' hends r hr
    rcases hends with heq | heq
    · exact absurd heq (hnear l' hl')
    · rw [heq] at hr
      cases hr
      apply hpend
  · intro r m _ hm
    apply hmsgs _ hm
  · intro l' hl' hfar' j' out' hy _
    obtain rfl := h.far_inj l' hl' l hl t hfar' hfar
    cases hy
    use hasked

/-- A connection is taken. -/
theorem take (h : Wired port next links W) (he : next e.1 ≤ e.2) (hle : ∀ i, next i ≤ next' i)
    (hlt : e.2 < next' e.1) (j : Fin maxOpenConnections) :
  Wired port next' links (W.put e (some (.taken j [])) W.msgs)
  := by
  obtain ⟨-, hnear, hfar⟩ := h.fresh he
  apply (h.of_le hle).put e
  · intro y hy
    cases hy
    exact ⟨j, [], rfl⟩
  · intro _
    use hlt
  · intro l hl hends
    rcases hends with heq | heq
    · exact absurd heq (hnear l hl)
    · exact absurd heq (hfar l hl)
  · intro t m _ hm
    apply hm
  · intro l hl hl'
    exact absurd hl' (hfar l hl)

/-- A connection has reached the listener of the process that it was made to. -/
theorem link (h : Wired port next links W) {l : Link} (hasked : l.asked = false)
    {u : Purpose} (hu : W.conn l.near = some (.made u (0x7F000001, port l.server)))
    (hnear : ∀ l' ∈ links, l'.near ≠ l.near)
    (hfar : ∀ t, l.far = some t → (∀ l' ∈ links, l'.far ≠ some t)
      ∧ t.2 < next t.1 ∧ ∃ j, W.conn t = some (.taken j [])) :
  Wired port next (links ++ [l]) W
  := by
  have hmem : ∀ l' ∈ links ++ [l], l' ∈ links ∨ l' = l := by
    intro l' hl'
    rcases List.mem_append.mp hl' with hold | hnew
    · left
      apply hold
    · right
      exact List.mem_singleton.mp hnew
  refine ⟨h.lt, ?near_lt, ?far_lt, ?near_inj, ?far_inj, ?near, ?far, ?quiet, h.own, ?forwards,
    h.once, ?request, ?reply⟩
  case near_lt =>
    intro l' hl'
    rcases hmem l' hl' with hold | rfl
    · exact h.near_lt l' hold
    · exact h.lt _ _ hu
  case far_lt =>
    intro l' hl' t ht
    rcases hmem l' hl' with hold | rfl
    · exact h.far_lt l' hold t ht
    · exact (hfar t ht).2.1
  case near_inj =>
    intro l₁ h₁ l₂ h₂ heq
    rcases hmem l₁ h₁ with hold₁ | rfl
    · rcases hmem l₂ h₂ with hold₂ | rfl
      · exact h.near_inj l₁ hold₁ l₂ hold₂ heq
      · exact absurd heq (hnear l₁ hold₁)
    · rcases hmem l₂ h₂ with hold₂ | rfl
      · exact absurd heq.symm (hnear l₂ hold₂)
      · rfl
  case far_inj =>
    intro l₁ h₁ l₂ h₂ t ht ht'
    rcases hmem l₁ h₁ with hold₁ | rfl
    · rcases hmem l₂ h₂ with hold₂ | rfl
      · exact h.far_inj l₁ hold₁ l₂ hold₂ t ht ht'
      · exact absurd ht ((hfar t ht').1 l₁ hold₁)
    · rcases hmem l₂ h₂ with hold₂ | rfl
      · exact absurd ht' ((hfar t ht).1 l₂ hold₂)
      · rfl
  case near =>
    intro l' hl' x hx
    rcases hmem l' hl' with hold | rfl
    · exact h.near l' hold x hx
    · rw [hu] at hx
      cases hx
      exact ⟨u, rfl⟩
  case far =>
    intro l' hl' t x ht hx
    rcases hmem l' hl' with hold | rfl
    · exact h.far l' hold t x ht hx
    · obtain ⟨-, -, j, hconn⟩ := hfar t ht
      rw [hconn] at hx
      cases hx
      exact ⟨j, [], rfl⟩
  case quiet =>
    intro l' hl' t hasked' ht
    rcases hmem l' hl' with hold | rfl
    · exact h.quiet l' hold t hasked' ht
    · obtain ⟨hother, -, j, hconn⟩ := hfar t ht
      constructor
      · intro hpending
        obtain ⟨l₁, h₁, hfar₁, -⟩ := h.of_pending hpending
        exact hother l₁ h₁ hfar₁
      · intro j' out hout
        rw [hconn] at hout
        cases hout
        rfl
  case forwards =>
    intro e data d hawaits hcb
    apply (h.forwards e data d hawaits hcb).mono
    · intro l' hl' _
      exact List.mem_append_left _ hl'
    · intro l' _ v _ _
      exact ⟨rfl, rfl, rfl⟩
  case request =>
    intro e u' sin hu' hunasked
    apply h.request e u' sin hu'
    intro l' hl'
    exact hunasked l' (List.mem_append_left _ hl')
  case reply =>
    intro l' hl' t j out ht hout hne
    rcases hmem l' hl' with hold | rfl
    · exact h.reply l' hold t j out ht hout hne
    · obtain ⟨-, -, j', hconn⟩ := hfar t ht
      rw [hconn] at hout
      cases hout
      exact absurd rfl hne

/-- A connection is made. -/
theorem opened (h : Wired port next links W) (he : next e.1 ≤ e.2) (hle : ∀ i, next i ≤ next' i)
    (hlt : e.2 < next' e.1) {u : Purpose} {sin : UInt32 × UInt16} {fs : List Frame}
    (hmsgs : ∀ y ∈ W.msgs, y ∈ xs)
    (hown : ∀ data, u.found = some data → (∀ d, data.cb ≠ .successorFoundForRemote d) → fs = [])
    (hforwards : ∀ data d, u.found = some data → data.cb = .successorFoundForRemote d →
      W.Forwards links e.1 fs d ∧ ∀ v, d.asker = some v → ¬ W.Pending (e.1, v))
    (hask : (∃ cb, u = .probe cb)
      ∨ ∃ d m, sin = (0x7F000001, port d) ∧ u.asks e.1 d fs = some m
        ∧ (some { conn := e, back := false }, m) ∈ xs) :
  Wired port next' links (W.opened e u sin fs xs)
  := by
  obtain ⟨-, hnear, hfar⟩ := h.fresh he
  have h' := h.of_le hle
  -- whatever is forwarded is so on ends other than the new one
  have hmono : ∀ i fs' d, W.Forwards links i fs' d →
      (W.opened e u sin fs xs).Forwards links i fs' d := by
    intro i fs' d hd
    apply hd.mono (fun l hl _ => hl)
    intro l hl v _ hv
    have hne : (i, v) ≠ e := fun heq => hfar l hl (hv.trans (congrArg some heq))
    exact ⟨Wires.conn_opened_of_ne hne, Wires.conn_opened_of_ne (hnear l hl),
      Wires.frames_opened_of_ne (hnear l hl)⟩
  refine ⟨?lt, h'.near_lt, h'.far_lt, h.near_inj, h.far_inj, ?near, ?far, ?quiet, ?own, ?forwards,
    ?once, ?request, ?reply⟩
  case lt =>
    intro e' y hy
    by_cases heq : e' = e
    · subst heq
      apply hlt
    · rw [Wires.conn_opened_of_ne heq] at hy
      apply h'.lt e' y hy
  case near =>
    intro l hl y hy
    rw [Wires.conn_opened_of_ne (hnear l hl)] at hy
    apply h.near l hl y hy
  case far =>
    intro l hl t y ht hy
    have hne : t ≠ e := fun heq => hfar l hl (heq ▸ ht)
    rw [Wires.conn_opened_of_ne hne] at hy
    apply h.far l hl t y ht hy
  case quiet =>
    intro l hl t hasked ht
    obtain ⟨hpending, hempty⟩ := h.quiet l hl t hasked ht
    constructor
    · rintro ⟨s, data, j, hawaits, hcb⟩
      rcases Wires.awaits_opened.mp hawaits with ⟨heq, hfound⟩ | ⟨-, hold⟩
      · subst heq
        obtain ⟨⟨l', hl', v, j', -, -, -, hd, hfar', hasked', -⟩, -⟩ := hforwards data _ hfound hcb
        obtain rfl : t.2 = v := Option.some.inj (congrArg IncomingHandlerData.asker hd)
        obtain rfl := h.far_inj l hl l' hl' t ht hfar'
        rw [hasked] at hasked'
        cases hasked'
      · exact hpending ⟨s, data, j, hold, hcb⟩
    · intro j out hy
      have hne : t ≠ e := fun heq => hfar l hl (heq ▸ ht)
      rw [Wires.conn_opened_of_ne hne] at hy
      apply hempty j out hy
  case own =>
    intro e' data hawaits hcb
    rcases Wires.awaits_opened.mp hawaits with ⟨rfl, hfound⟩ | ⟨hne, hold⟩
    · rw [Wires.frames_opened_self]
      apply hown data hfound hcb
    · rw [Wires.frames_opened_of_ne hne]
      apply h.own e' data hold hcb
  case forwards =>
    intro e' data d hawaits hcb
    rcases Wires.awaits_opened.mp hawaits with ⟨rfl, hfound⟩ | ⟨hne, hold⟩
    · rw [Wires.frames_opened_self]
      apply hmono _ _ _ (hforwards data d hfound hcb).1
    · rw [Wires.frames_opened_of_ne hne]
      apply hmono _ _ _ (h.forwards e' data d hold hcb)
  case once =>
    intro i s s' v j j' data data' hs hcb hs' hcb'
    rcases Wires.awaits_opened.mp hs with ⟨heq, hfound⟩ | ⟨-, hold⟩
    · subst heq
      rcases Wires.awaits_opened.mp hs' with ⟨heq', -⟩ | ⟨-, hold'⟩
      · exact (congrArg Prod.snd heq').symm
      · obtain ⟨-, hpending⟩ := hforwards data _ hfound hcb
        exact absurd ⟨s', data', j', hold', hcb'⟩ (hpending v rfl)
    · rcases Wires.awaits_opened.mp hs' with ⟨heq', hfound'⟩ | ⟨-, hold'⟩
      · subst heq'
        obtain ⟨-, hpending⟩ := hforwards data' _ hfound' hcb'
        exact absurd ⟨s, data, j, hold, hcb⟩ (hpending v rfl)
      · exact h.once i s s' v j j' data data' hold hcb hold' hcb'
  case request =>
    intro e' u' sin' hu' hasked
    by_cases heq : e' = e
    · subst heq
      rw [Wires.conn_opened_self] at hu'
      cases hu'
      rw [Wires.frames_opened_self]
      apply hask
    · rw [Wires.conn_opened_of_ne heq] at hu'
      rw [Wires.frames_opened_of_ne heq]
      rcases h.request e' u' sin' hu' hasked with hprobe | ⟨d, m, hsin, hm, hin⟩
      · left
        apply hprobe
      · right
        exact ⟨d, m, hsin, hm, hmsgs _ hin⟩
  case reply =>
    intro l hl t j out ht hy hne
    have hne' : t ≠ e := fun heq => hfar l hl (heq ▸ ht)
    rw [Wires.conn_opened_of_ne hne'] at hy
    apply (h.reply l hl t j out ht hy hne).mono (Wires.conn_opened_of_ne (hnear l hl))
      (Wires.frames_opened_of_ne (hnear l hl))
    intro m hm
    apply hmsgs _ hm

end Wired

/-! ### The request on a connection arrives -/

namespace Machine

/-- The link `l'`, after the request on `l` has arrived. -/
def askOne (l l' : Link) : Link :=
  if l' = l then { l' with asked := true } else l'

variable {l l' : Link} {links : List Link}

theorem mem_ask :
  l' ∈ ask links l ↔ ∃ l₀ ∈ links, askOne l l₀ = l'
  := List.mem_map

theorem askOne_near :
  (askOne l l').near = l'.near
  := by
  rw [askOne]
  split_ifs <;> rfl

theorem askOne_far :
  (askOne l l').far = l'.far
  := by
  rw [askOne]
  split_ifs <;> rfl

theorem askOne_server :
  (askOne l l').server = l'.server
  := by
  rw [askOne]
  split_ifs <;> rfl

theorem askOne_unasked (h : (askOne l l').asked = false) :
  l' ≠ l ∧ l'.asked = false
  := by
  rw [askOne] at h
  split_ifs at h with heq
  exact ⟨heq, h⟩

theorem askOne_of_ne (h : l' ≠ l) :
  askOne l l' = l'
  := if_neg h

end Machine

namespace Wired

variable {port : HashType → UInt16} {next : HashType → ℕ} {links : List Link} {W : Wires}
  {l : Link} {xs : List (Option Ticket × Msg)}

/-- The request on a connection arrives. It is no message in flight any more. -/
theorem ask (h : Wired port next links W) (hl : l ∈ links) (hasked : l.asked = false)
    (hmsgs : ∀ t m, t ≠ { conn := l.near, back := false } → (some t, m) ∈ W.msgs →
      (some t, m) ∈ xs) :
  Wired port next (Machine.ask links l) (W.carry xs)
  := by
  refine ⟨h.lt, ?near_lt, ?far_lt, ?near_inj, ?far_inj, ?near, ?far, ?quiet, h.own, ?forwards,
    h.once, ?request, ?reply⟩
  case near_lt =>
    intro l' hl'
    obtain ⟨l₀, h₀, rfl⟩ := Machine.mem_ask.mp hl'
    rw [Machine.askOne_near]
    apply h.near_lt l₀ h₀
  case far_lt =>
    intro l' hl' t ht
    obtain ⟨l₀, h₀, rfl⟩ := Machine.mem_ask.mp hl'
    rw [Machine.askOne_far] at ht
    apply h.far_lt l₀ h₀ t ht
  case near_inj =>
    intro _ hmem₁ _ hmem₂ heq
    obtain ⟨l₁, h₁, rfl⟩ := Machine.mem_ask.mp hmem₁
    obtain ⟨l₂, h₂, rfl⟩ := Machine.mem_ask.mp hmem₂
    rw [Machine.askOne_near, Machine.askOne_near] at heq
    rw [h.near_inj l₁ h₁ l₂ h₂ heq]
  case far_inj =>
    intro _ hmem₁ _ hmem₂ t ht ht'
    obtain ⟨l₁, h₁, rfl⟩ := Machine.mem_ask.mp hmem₁
    obtain ⟨l₂, h₂, rfl⟩ := Machine.mem_ask.mp hmem₂
    rw [Machine.askOne_far] at ht ht'
    rw [h.far_inj l₁ h₁ l₂ h₂ t ht ht']
  case near =>
    intro l' hl' x hx
    obtain ⟨l₀, h₀, rfl⟩ := Machine.mem_ask.mp hl'
    rw [Machine.askOne_near] at hx
    rw [Machine.askOne_server]
    apply h.near l₀ h₀ x hx
  case far =>
    intro l' hl' t x ht hx
    obtain ⟨l₀, h₀, rfl⟩ := Machine.mem_ask.mp hl'
    rw [Machine.askOne_far] at ht
    apply h.far l₀ h₀ t x ht hx
  case quiet =>
    intro l' hl' t hunasked ht
    obtain ⟨l₀, h₀, rfl⟩ := Machine.mem_ask.mp hl'
    rw [Machine.askOne_far] at ht
    apply h.quiet l₀ h₀ t (Machine.askOne_unasked hunasked).2 ht
  case forwards =>
    intro e data d hawaits hcb
    apply (h.forwards e data d hawaits hcb).mono
    · intro l' hl' hasked'
      have hne : l' ≠ l := by
        rintro rfl
        rw [hasked] at hasked'
        cases hasked'
      exact Machine.mem_ask.mpr ⟨l', hl', Machine.askOne_of_ne hne⟩
    · intro l' _ v _ _
      exact ⟨rfl, rfl, rfl⟩
  case request =>
    intro e u sin hu hunasked
    have hold : ∀ l' ∈ links, l'.near = e → l' ≠ l ∧ l'.asked = false := by
      intro l' hl' heq
      apply Machine.askOne_unasked
      apply hunasked _ (Machine.mem_ask.mpr ⟨l', hl', rfl⟩)
      rw [Machine.askOne_near, heq]
    rcases h.request e u sin hu (fun l' hl' heq => (hold l' hl' heq).2) with
      hprobe | ⟨d, m, hsin, hm, hin⟩
    · left
      apply hprobe
    · right
      use d, m, hsin, hm
      apply hmsgs _ m _ hin
      intro heq
      exact (hold l hl (congrArg Ticket.conn heq).symm).1 rfl
  case reply =>
    intro l' hl' t j out ht hy hne
    obtain ⟨l₀, h₀, rfl⟩ := Machine.mem_ask.mp hl'
    rw [Machine.askOne_far] at ht
    rw [Machine.askOne_near]
    refine (h.reply l₀ h₀ t j out ht hy hne).mono rfl rfl ?_
    intro m hm
    apply hmsgs _ m _ hm
    intro heq
    exact absurd (congrArg Ticket.back heq) Bool.true_eq_false.mp

end Wired
