import LibDht.Net.Delivery
import LibDht.Wire.Grammar

/-!
# Encoding and decoding of messages

A message is printed with its type, the length that its sender gives, and its content as a
string, which ends at the first zero byte, wherever that is. What is read back is the
message exactly when its content holds no zero byte and one follows it in memory.

A header that is no header is read all the same: the parser never fails, so that the reader
goes on with whatever `strtoul` makes of it.
-/

/-! ### Content -/

/-- The pointer `content` of a message points to the bytes `content`: there are none behind a
null pointer, and in memory at least one byte follows them. -/
inductive PointsTo : Option (List UInt8) → List UInt8 → Prop where
  | null : PointsTo none []
  | memory (content : List UInt8) (x : UInt8) (rest : List UInt8) :
      PointsTo (some (content ++ x :: rest)) content

section

variable {D E A : Type}

/-- What `node_send_message` adds to the output buffer of the slot `i` is read back as the
message, with its content behind the header. -/
def RoundTrips (srv : NetServer D E A) (i : Fin maxOpenConnections) (msg : NodeMessage)
    (content : List UInt8) : Prop :=
  ∃ b b' wire, (srv.connections i).bev = some b
    ∧ ((nodeSendMessage srv msg i.val).2.connections i).bev = some b'
    ∧ b'.output = b.output ++ wire
    ∧ ∀ old, nodeParseMessageHeader old wire = ((msg.type, msg.len), content)

/-- The content is a string: it holds no zero byte, and one follows it in memory; and it can
be printed at once with its header. -/
structure IsString (msg : NodeMessage) (content : List UInt8) : Prop where
  noZero : 0 ∉ content
  terminated : ∀ memory ∈ msg.content, memory[content.length]? = some 0
  fits : headerBytes + content.length ≤ intMax

/-- Printing fails only when there is too much to print, and the connection is started. -/
structure SendsWhatFits (srv : NetServer D E A) (msg : NodeMessage) : Prop where
  printf : (srv.outcome srv.calls).printf = decide (msg.text.length ≤ intMax)
  connect : (srv.outcome (srv.calls + 1)).connect = true

end

/-- What is printed of a string is the string exactly when it holds no zero byte and ends with
one. -/
theorem takeWhile_ne_zero_iff (content : List UInt8) (x : UInt8) (rest : List UInt8) :
  (content ++ x :: rest).takeWhile (· != 0) = content ↔ 0 ∉ content ∧ x = 0
  := by
  induction content with
  | nil => by_cases hx : x = 0 <;> simp [hx]
  | cons c cs ih =>
    by_cases hc : c = 0
    · simp [hc]
    · have hc' : ¬ 0 = c := Ne.symm hc
      simp [hc, hc', ih]

/-- The text of a message is read as the message exactly when its content is a string. -/
theorem text_iff {msg : NodeMessage} {content : List UInt8} (hat : PointsTo msg.content content)
    (hlen : content.length = msg.len.toNat) :
  (∀ old, nodeParseMessageHeader old msg.text = ((msg.type, msg.len), content))
    ↔ 0 ∉ content ∧ ∀ memory ∈ msg.content, memory[content.length]? = some 0
  := by
  obtain ⟨dest, type, len, pointer⟩ := msg
  cases hat with
  | null =>
    obtain rfl : len = 0 := UInt32.toNat_inj.mp hlen.symm
    have htext : NodeMessage.text { dest := dest, type := type, len := 0, content := none }
        = messageHeader type 0 ++ [] := (List.append_nil _).symm
    rw [htext]
    apply iff_of_true
    · intro old
      apply nodeParseMessageHeader_append
    · simp
  | memory content x rest =>
    have hstring := takeWhile_ne_zero_iff content x rest
    have hnext : (content ++ x :: rest)[content.length]? = some x := by simp
    simp only [NodeMessage.text, nodeParseMessageHeader_append, Prod.mk.injEq, true_and,
      Option.mem_def, Option.some.injEq, forall_eq', hnext, hstring, forall_const]

theorem length_text_of_string {msg : NodeMessage} {content : List UInt8}
    (h : ∀ old, nodeParseMessageHeader old msg.text = ((msg.type, msg.len), content)) :
  msg.text.length = headerBytes + content.length
  := by
  have hrest := congrArg Prod.snd (h 0)
  have hle : headerBytes ≤ msg.text.length := by
    unfold NodeMessage.text
    split <;> simp
  simp only [nodeParseMessageHeader] at hrest
  rw [← hrest, List.length_drop]
  omega

section

variable {D E A : Type}

/-- Decoding undoes encoding exactly for messages whose content is a string. -/
theorem roundTrips_iff {srv : NetServer D E A} {i : Fin maxOpenConnections} {b : Bufferevent}
    (hb : (srv.connections i).bev = some b) {msg : NodeMessage} {content : List UInt8}
    (hat : PointsTo msg.content content) (hlen : content.length = msg.len.toNat)
    (hsends : SendsWhatFits srv msg) :
  RoundTrips srv i msg content ↔ IsString msg content
  := by
  have htext := text_iff hat hlen
  by_cases hfits : msg.text.length ≤ intMax
  · have hout : ((nodeSendMessage srv msg i.val).2.connections i).bev
        = some { b with output := b.output ++ msg.text, enabled := true } := by
      rw [nodeSendMessage_of_bev hb, hsends.printf, hsends.connect]
      simp [hfits]
    constructor
    · rintro ⟨b₁, b', wire, hb₁, hb', hwire, hparse⟩
      obtain rfl := Option.some.inj (hb.symm.trans hb₁)
      obtain rfl := Option.some.inj (hout.symm.trans hb')
      obtain rfl := List.append_cancel_left hwire
      obtain ⟨hzero, hend⟩ := htext.mp hparse
      exact ⟨hzero, hend, length_text_of_string hparse ▸ hfits⟩
    · intro h
      exact ⟨b, _, msg.text, hb, hout, rfl, htext.mpr ⟨h.noZero, h.terminated⟩⟩
  · have hout : ((nodeSendMessage srv msg i.val).2.connections i).bev = some b := by
      rw [nodeSendMessage_of_bev hb, hsends.printf]
      simp [hfits, hb]
    constructor
    · rintro ⟨b₁, b', wire, hb₁, hb', hwire, hparse⟩
      -- nothing is added, and what is read is what was in memory
      obtain rfl := Option.some.inj (hb.symm.trans hb₁)
      obtain rfl := Option.some.inj (hout.symm.trans hb')
      obtain rfl := List.self_eq_append_right.mp hwire
      have htype : ∀ old, old = msg.type := fun old =>
        congrArg (fun r => r.1.1) (hparse old)
      exact absurd ((htype 0).trans (htype 1).symm) (by decide)
    · intro h
      have hparse := htext.mpr ⟨h.noZero, h.terminated⟩
      exact absurd (length_text_of_string hparse ▸ h.fits) hfits

end

/-- A table with one connection, which has not been started. -/
def unstarted : NodeNet :=
  (netConnectionCreate (NetServer.empty fun _ => .fine) 1 1).2

/-- The connection of `unstarted`. -/
def unstartedBev : Bufferevent :=
  { serial := 0, input := [], output := [], low := 0, enabled := false, peer := 1 }

/-- A message of three bytes, the second of which is zero. -/
def zeroInside : NodeMessage :=
  { dest := nullNode, type := msgTNodeMsg, len := 3, content := some ([97, 0, 98] ++ 0 :: []) }

theorem unstarted_bev :
  (unstarted.connections 0).bev = some unstartedBev
  := by decide +kernel

theorem sendsWhatFits_unstarted :
  SendsWhatFits unstarted zeroInside
  := ⟨by decide +kernel, by decide +kernel⟩

theorem roundTrips_iff_zeroInside :
  RoundTrips unstarted 0 zeroInside [97, 0, 98] ↔ IsString zeroInside [97, 0, 98]
  := roundTrips_iff unstarted_bev (.memory [97, 0, 98] 0 []) rfl sendsWhatFits_unstarted

/-- The header announces three bytes, and one is sent. -/
theorem content_cut_at_zero :
  ¬ ∀ (srv : NodeNet) (i : Fin maxOpenConnections) (b : Bufferevent) (msg : NodeMessage)
    (content : List UInt8), (srv.connections i).bev = some b → PointsTo msg.content content →
    content.length = msg.len.toNat → SendsWhatFits srv msg → RoundTrips srv i msg content
  := by
  intro h
  obtain ⟨b, b', wire, hb, hb', hwire, hparse⟩ := h unstarted 0 unstartedBev zeroInside [97, 0, 98]
    unstarted_bev (.memory [97, 0, 98] 0 []) rfl sendsWhatFits_unstarted
  have hout : ((nodeSendMessage unstarted zeroInside 0).2.connections 0).bev
      = some { unstartedBev with output := zeroInside.text, enabled := true } := by decide +kernel
  obtain rfl := Option.some.inj (unstarted_bev.symm.trans hb)
  obtain rfl := Option.some.inj (hout.symm.trans hb')
  obtain rfl : zeroInside.text = wire := hwire
  exact absurd (hparse 0) (by decide +kernel)

/-! ### Headers -/

/-- `incoming_read_cb`, with the branch for a header that cannot be parsed. -/
def incomingReadCbRc (p : NodeProcess) (connection : ℤ) : Option CbArg → NodeProcess
  | some .self =>
    p.withBuffer connection fun p i b =>
      let (o, p) := p.ask
      let (rc, (type, len), rest) := nodeParseMessageHeaderRc (o.byte, o.node.id) b.input
      let p := p.setInput i rest
      if rc < 0 then p.close connection
      else if rest.length < len.toNat then
        let p := deferBody p connection type len
        { p with net := p.net.modifyBev i fun b => { b with low := len.toNat } }
      else handleBody p connection type len
  | _ => p.crash

/-- The parser takes `buf` exactly when it begins with a header, and reads it as what it is;
otherwise the connection is closed, and no handler is called. -/
structure ParsesExactly (buf : List UInt8) : Prop where
  accepts : ∀ old,
    (nodeParseMessageHeaderRc old buf).1 = 0 ↔ ∃ type len, BeginsWithHeader buf type len
  reads : ∀ old type len, BeginsWithHeader buf type len →
    (nodeParseMessageHeaderRc old buf).2.1.1 = type
      ∧ (nodeParseMessageHeaderRc old buf).2.1.2.toNat = len
  rejects : (¬ ∃ type len, BeginsWithHeader buf type len) →
    (∀ old, (nodeParseMessageHeaderRc old buf).1 = -1)
      ∧ ∀ (p : NodeProcess) (i : Fin maxOpenConnections) (b : Bufferevent),
        (p.net.connections i).bev = some b → b.input = buf →
        ((incomingReadCbRc p i.val (some .self)).net.connections i).bev = none
          ∧ (incomingReadCbRc p i.val (some .self)).node = p.node
          ∧ (incomingReadCbRc p i.val (some .self)).log = p.log

/-- No header is one that cannot be parsed. -/
theorem incomingReadCbRc_eq (p : NodeProcess) (connection : ℤ) (arg : Option CbArg) :
  incomingReadCbRc p connection arg = incomingReadCb p connection arg
  := by
  rcases arg with _ | ⟨_ | _⟩
  case some.self =>
    simp only [incomingReadCbRc, incomingReadCb, nodeParseMessageHeaderRc_eq, Int.lt_irrefl,
      if_false]
  all_goals rfl

/-- The parser accepts exactly the headers on those buffers that begin with one. -/
theorem parsesExactly_iff (buf : List UInt8) :
  ParsesExactly buf ↔ ∃ type len, BeginsWithHeader buf type len
  := by
  constructor
  · intro h
    apply (h.accepts (0, 0)).mp
    rw [nodeParseMessageHeaderRc_eq]
  · intro h
    constructor
    · intro old
      rw [nodeParseMessageHeaderRc_eq]
      exact iff_of_true rfl h
    · intro old type len hheader
      rw [nodeParseMessageHeaderRc_eq]
      exact hheader.parse old.1
    · intro hnone
      exact absurd h hnone

/-- The length `-0000001` is not one, and is read as the greatest of all. -/
def signedLength : List UInt8 :=
  [83, 45, 48, 48, 48, 48, 48, 48, 49]

/-- A sign is accepted in the place of a digit. -/
theorem sign_accepted :
  nodeParseMessageHeaderRc (0, 0) signedLength = (0, (83, 4294967295), [])
    ∧ ¬ ∀ buf, ParsesExactly buf
  := by
  use by decide +kernel
  intro h
  obtain ⟨type, len, digits, body, hbuf, hlen, hdigits, -⟩ :=
    ((h signedLength).accepts (0, 0)).mp (by decide +kernel)
  cases digits with
  | nil => cases hlen
  | cons d ds =>
    obtain rfl : 45 = d := (List.cons.inj (List.cons.inj hbuf).2).1
    exact absurd (hdigits 45 List.mem_cons_self) (by decide)
