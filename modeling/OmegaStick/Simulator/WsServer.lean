import Mathlib.Data.Stream.Init
import OmegaStick.Simulator.Handshake
import OmegaStick.Simulator.WebSocketStreams

/-!
# One connection of the server

`accept_loop` and `serve` of `sim/src/ws_server.cpp` for one connection, as a function of
what `recv` returns: first the head of the request, then frames, the first of them maybe
behind the head in the same read.  Other threads share the connection: a newer one takes
its place, a failed send, `close_client` or `stop` shuts it, and a send may fail (`Look`).

A read that ends the head may hold the first frames, and a Close may stand in one read
with frames behind it.  Neither is lost or told apart by where the reads end: left alone,
what is done up to the first Close is that of the whole stream (`heard_serve`).  Whatever
the other threads do, it is a part of that in the same order (`handed_serve`), with at
most one Close.
-/

namespace OmegaStick

namespace WebSocket

/-! ## Frames -/

/-- A handler that `serve` calls, or a frame that it sends. -/
inductive Action where
  | onText (data : Bytes)
  | onBinary (data : Bytes)
  | sendPong (data : Bytes)
  | sendClose (payload : Bytes)
  deriving DecidableEq, Repr

def Action.isClose : Action → Bool
  | .sendClose _ => true
  | _ => false

/-- The payload of the Close that refuses a stream, with `close_code`. -/
def Refusal.closePayload : Refusal → Bytes
  | protocolError => [0x03, 0xEA]
  | tooBig => [0x03, 0xF1]

/-- What is to be seen of the other threads at one moment. -/
structure Look where
  /-- `current() == conn` -/
  isCurrent : Bool
  /-- another thread shut the connection since the last moment -/
  isShut : Bool
  /-- a send goes through -/
  sends : Bool
  deriving DecidableEq, Repr

/-- The connection is left alone, and sends succeed. -/
def leftAlone : Stream' Look := Stream'.const ⟨true, false, true⟩

/-- The variables of `serve`, with the connection's `open`, and what is still to be seen. -/
structure Serving where
  decoder : Decoder
  isOpen : Bool
  closeSent : Bool
  looks : Stream' Look

namespace Serving

def new (looks : Stream' Look) : Serving := ⟨.new, true, false, looks⟩

/-- The next moment. -/
def look (s : Serving) : Look × Serving :=
  (s.looks.head,
    { s with isOpen := s.isOpen && !s.looks.head.isShut, looks := s.looks.tail })

/-- `send_frame`: nothing is sent on a connection that was shut, and a send that fails
shuts it. -/
def sendFrame (s : Serving) (frame : Action) : List Action × Serving :=
  let (look, s) := s.look
  if s.isOpen && look.sends then ([frame], s) else ([], { s with isOpen := false })

/-- A handler is called while the connection is the current one. -/
def handle (s : Serving) (handler : Action) : List Action × Serving :=
  let (look, s) := s.look
  (if look.isCurrent then [handler] else [], s)

/-- One message. -/
def answer (s : Serving) (m : Message) : List Action × Serving :=
  match m.op with
  | .text => s.handle (.onText m.data)
  | .binary => s.handle (.onBinary m.data)
  | .ping => s.sendFrame (.sendPong m.data)
  | .close =>
      let (actions, s) := s.sendFrame (.sendClose m.data)
      (actions, { s with isOpen := false, closeSent := true })
  | .continuation | .pong => ([], s)

def answerAll (s : Serving) : List Message → List Action × Serving
  | [] => ([], s)
  | m :: messages =>
      let (actions, s) := s.answer m
      let (later, s) := s.answerAll messages
      (actions ++ later, s)

/-- The Close for a stream that is refused, unless one was sent. -/
def refuse (s : Serving) (refusal : Refusal) : List Action × Serving :=
  let (actions, s) :=
    if s.closeSent then ([], s) else s.sendFrame (.sendClose refusal.closePayload)
  (actions, { s with isOpen := false })

/-- What one read gives. -/
def round (s : Serving) (bytes : Bytes) : List Action × Serving :=
  let (decoder, messages) := s.decoder.feed bytes
  let (actions, s) := { s with decoder := decoder }.answerAll messages
  match decoder.status with
  | none => (actions, s)
  | some refusal =>
      let (last, s) := s.refuse refusal
      (actions ++ last, s)

/-- The loop of `serve`, until a read returns nothing. -/
def serve (s : Serving) : List Bytes → List Action
  | [] => []
  | bytes :: reads =>
      let (_, s) := s.look
      if s.isOpen then
        let (actions, s) := s.round bytes
        actions ++ s.serve reads
      else []

end Serving

/-! ## The head of the request -/

/-- `"\r\n\r\n"` -/
def blankLine : Bytes := [13, 10, 13, 10]

/-- Up to and with the first blank line, and what is behind it. -/
def cutHead : Bytes → Option (Bytes × Bytes)
  | [] => none
  | c :: rest =>
      if blankLine.isPrefixOf (c :: rest) then some (blankLine, rest.drop 3)
      else (cutHead rest).map fun (head, more) => (c :: head, more)

/-- Reads until there is a blank line; `none` when there is none in time. -/
def readHead (head : Bytes) : List Bytes → Option (Bytes × List Bytes)
  | [] => none
  | bytes :: reads =>
      if 16 * 1024 ≤ head.length then none
      else if (cutHead (head ++ bytes)).isSome then some (head ++ bytes, reads)
      else readHead (head ++ bytes) reads

/-- What `serve` decodes: what was read behind the head goes first, if it fits. -/
def servedReads (leftover : Bytes) (reads : List Bytes) : List Bytes :=
  if leftover ≠ [] ∧ leftover.length ≤ 8192 then leftover :: reads else reads

/-- A connection: the answer that `accept_loop` sends, and what is done then, whether or not
that answer went through; `none` when it is closed without an answer. -/
def connection (looks : Stream' Look) (reads : List Bytes) :
    Option (Handshake × List Action) := do
  let (head, reads) ← readHead [] reads
  let (request, leftover) ← cutHead head
  let hs := parseHandshake request
  some (hs, if hs.status = 101 then (Serving.new looks).serve (servedReads leftover reads) else [])

section Head

theorem cutHead_eq_some {text head rest : Bytes} (h : cutHead text = some (head, rest)) :
    text = head ++ rest ∧ 4 ≤ head.length := by
  induction text generalizing head with
  | nil => cases h
  | cons c text ih =>
      rw [cutHead] at h
      split_ifs at h with hblank
      · obtain ⟨rfl, rfl⟩ := Prod.mk.inj (Option.some.inj h)
        obtain ⟨rest, hrest⟩ := List.isPrefixOf_iff_prefix.mp hblank
        refine ⟨?_, le_rfl⟩
        rw [← hrest]
        have htext : text = [10, 13, 10] ++ rest := by
          have := congrArg List.tail hrest
          exact this.symm
        rw [htext]
        rfl
      · obtain ⟨⟨first, more⟩, hcut, hpair⟩ := Option.map_eq_some_iff.mp h
        obtain ⟨rfl, rfl⟩ := Prod.mk.inj hpair
        obtain ⟨rfl, hlength⟩ := ih hcut
        exact ⟨rfl, by rw [List.length_cons]; omega⟩

theorem cutHead_append {text head rest : Bytes} (h : cutHead text = some (head, rest))
    (more : Bytes) : cutHead (text ++ more) = some (head, rest ++ more) := by
  induction text generalizing head with
  | nil => cases h
  | cons c text ih =>
      rw [cutHead] at h
      rw [List.cons_append, cutHead]
      split_ifs at h with hblank
      · obtain ⟨rfl, rfl⟩ := Prod.mk.inj (Option.some.inj h)
        have hstart := List.isPrefixOf_iff_prefix.mp hblank
        have hlength := hstart.length_le
        have hlonger : blankLine.isPrefixOf (c :: (text ++ more)) = true :=
          List.isPrefixOf_iff_prefix.mpr (hstart.trans (List.prefix_append (c :: text) more))
        rw [if_pos hlonger, List.drop_append_of_le_length]
        simp only [blankLine, List.length_cons, List.length_nil] at hlength
        omega
      · obtain ⟨⟨first, later⟩, hcut, hpair⟩ := Option.map_eq_some_iff.mp h
        obtain ⟨rfl, rfl⟩ := Prod.mk.inj hpair
        obtain ⟨rfl, hlength⟩ := cutHead_eq_some hcut
        have hnot : ¬ blankLine.isPrefixOf (c :: (first ++ later ++ more)) = true := by
          intro hblank'
          refine hblank (List.isPrefixOf_iff_prefix.mpr ?_)
          rw [List.isPrefixOf_iff_prefix, ← List.cons_append] at hblank'
          refine List.prefix_of_prefix_length_le hblank' (List.prefix_append _ _) ?_
          simp only [blankLine, List.length_cons, List.length_append, List.length_nil]
          omega
        rw [if_neg hnot, ih hcut]
        rfl

/-- The read that brings the blank line holds what is behind it. -/
theorem length_leftover_lt {text more head rest : Bytes} (h : cutHead text = none)
    (hmore : cutHead (text ++ more) = some (head, rest)) : rest.length < more.length := by
  induction text generalizing head with
  | nil =>
      have hlength := (cutHead_eq_some hmore).2
      rw [List.nil_append] at hmore
      have hall := congrArg List.length (cutHead_eq_some hmore).1
      rw [List.length_append] at hall
      omega
  | cons c text ih =>
      rw [cutHead] at h
      rw [List.cons_append, cutHead] at hmore
      split_ifs at h with hblank
      split_ifs at hmore with hblank'
      · obtain ⟨-, rfl⟩ := Prod.mk.inj (Option.some.inj hmore)
        have hshort : text.length < 3 := by
          by_contra hlong
          refine hblank (List.isPrefixOf_iff_prefix.mpr ?_)
          rw [List.isPrefixOf_iff_prefix, ← List.cons_append] at hblank'
          refine List.prefix_of_prefix_length_le hblank' (List.prefix_append _ _) ?_
          simp only [blankLine, List.length_cons, List.length_nil]
          omega
        have hlength : 4 ≤ (c :: (text ++ more)).length :=
          (List.isPrefixOf_iff_prefix.mp hblank').length_le
        rw [List.length_drop]
        simp only [List.length_cons, List.length_append] at hlength ⊢
        omega
      · obtain ⟨⟨first, later⟩, hcut, hpair⟩ := Option.map_eq_some_iff.mp hmore
        obtain ⟨-, rfl⟩ := Prod.mk.inj hpair
        exact ih (Option.map_eq_none_iff.mp h) hcut

/-- **A head of up to 16 KiB is found**, and what was read behind it is all there. -/
theorem readHead_eq {request rest head : Bytes} {reads : List Bytes}
    (hrequest : cutHead request = some (request, [])) (hlength : request.length ≤ 16 * 1024)
    (hreads : ∀ bytes ∈ reads, bytes.length ≤ 8192) (hhead : cutHead head = none)
    (hstream : head ++ reads.flatten = request ++ rest) :
    ∃ found leftover later, readHead head reads = some (found, later) ∧
      cutHead found = some (request, leftover) ∧ leftover.length ≤ 8192 ∧
      leftover ++ later.flatten = rest := by
  have hwhole : cutHead (request ++ rest) = some (request, rest) := by
    have := cutHead_append hrequest rest
    rwa [List.nil_append] at this
  induction reads generalizing head with
  | nil =>
      rw [List.flatten_nil, List.append_nil] at hstream
      rw [hstream, hwhole] at hhead
      cases hhead
  | cons bytes reads ih =>
      rw [List.forall_mem_cons] at hreads
      rw [List.flatten_cons, ← List.append_assoc] at hstream
      have hnotYet : ¬ 16 * 1024 ≤ head.length := by
        intro hlong
        have hprefix : request <+: head := by
          refine List.prefix_of_prefix_length_le (List.prefix_append request rest) ?_
            (hlength.trans hlong)
          rw [← hstream, List.append_assoc]
          exact List.prefix_append _ _
        obtain ⟨more, rfl⟩ := hprefix
        rw [cutHead_append hrequest more] at hhead
        cases hhead
      rw [readHead, if_neg hnotYet]
      cases hcut : cutHead (head ++ bytes) with
      | none =>
          rw [if_neg (by decide)]
          exact ih hreads.2 hcut hstream
      | some found =>
          obtain ⟨first, leftover⟩ := found
          have hall := cutHead_append hcut reads.flatten
          rw [hstream, hwhole] at hall
          obtain ⟨rfl, rfl⟩ := Prod.mk.inj (Option.some.inj hall)
          have hshort := length_leftover_lt hhead hcut
          exact ⟨_, leftover, reads, if_pos rfl, hcut, by omega, rfl⟩

end Head

/-! ## The whole stream -/

/-- What is done up to the first Close. -/
def heard : List Action → List Action
  | [] => []
  | .sendClose payload :: _ => [.sendClose payload]
  | action :: later => action :: heard later

/-- What a message that is not a Close is answered. -/
def Message.actions (m : Message) : List Action :=
  match m.op with
  | .text => [.onText m.data]
  | .binary => [.onBinary m.data]
  | .ping => [.sendPong m.data]
  | .close | .continuation | .pong => []

/-- What messages are answered, and then the end of their stream, up to the first Close. -/
def answers : List Message → Option Refusal → List Action
  | [], refused => (refused.map fun refusal => Action.sendClose refusal.closePayload).toList
  | m :: messages, refused =>
      if m.op = .close then [.sendClose m.data] else m.actions ++ answers messages refused

theorem heard_actions (m : Message) (later : List Action) :
    heard (m.actions ++ later) = m.actions ++ heard later := by
  obtain ⟨op, data⟩ := m
  cases op <;> rfl

namespace Serving

variable {s : Serving}

/-- Of a connection left alone nothing is seen. -/
theorem look_of_leftAlone (halone : s.looks = leftAlone) : s.look = (⟨true, false, true⟩, s) := by
  obtain ⟨decoder, isOpen, closeSent, looks⟩ := s
  subst halone
  have htail : leftAlone.tail = leftAlone := Stream'.tail_const _
  rw [look, htail]
  exact Prod.ext rfl (congrArg (Serving.mk decoder · closeSent leftAlone) (Bool.and_true _))

theorem sendFrame_of_leftAlone (halone : s.looks = leftAlone) (hopen : s.isOpen = true)
    (frame : Action) : s.sendFrame frame = ([frame], s) := by
  rw [sendFrame, look_of_leftAlone halone]
  simp [hopen]

theorem refuse_of_leftAlone (halone : s.looks = leftAlone) (hopen : s.isOpen = true)
    (hsent : s.closeSent = false) (refusal : Refusal) :
    s.refuse refusal = ([.sendClose refusal.closePayload], { s with isOpen := false }) := by
  rw [refuse, hsent, if_neg (by decide), sendFrame_of_leftAlone halone hopen]
  simp only [hsent]

theorem handle_of_leftAlone (halone : s.looks = leftAlone) (handler : Action) :
    s.handle handler = ([handler], s) := by
  rw [handle, look_of_leftAlone halone]
  rfl

theorem answer_of_ne (m : Message) (hop : m.op ≠ .close) (hopen : s.isOpen = true)
    (halone : s.looks = leftAlone) : s.answer m = (m.actions, s) := by
  obtain ⟨op, data⟩ := m
  cases op with
  | close => exact absurd rfl hop
  | ping => exact sendFrame_of_leftAlone halone hopen _
  | text | binary => exact handle_of_leftAlone halone _
  | continuation | pong => rfl

theorem isOpen_look_of_shut (hshut : s.isOpen = false) : s.look.2.isOpen = false := by
  rw [look, hshut]
  rfl

theorem isOpen_sendFrame_of_shut (hshut : s.isOpen = false) (frame : Action) :
    (s.sendFrame frame).2.isOpen = false := by
  simp only [sendFrame, isOpen_look_of_shut hshut, Bool.false_and, Bool.false_eq_true, if_false]

@[simp] theorem closeSent_sendFrame (s : Serving) (frame : Action) :
    (s.sendFrame frame).2.closeSent = s.closeSent := by
  simp only [sendFrame]
  split_ifs <;> rfl

theorem answer_of_shut (m : Message) (hshut : s.isOpen = false) (hsent : s.closeSent = true) :
    (s.answer m).2.isOpen = false ∧ (s.answer m).2.closeSent = true := by
  obtain ⟨op, data⟩ := m
  cases op with
  | close => exact ⟨rfl, rfl⟩
  | ping => exact ⟨isOpen_sendFrame_of_shut hshut _, (closeSent_sendFrame s _).trans hsent⟩
  | text | binary => exact ⟨isOpen_look_of_shut hshut, hsent⟩
  | continuation | pong => exact ⟨hshut, hsent⟩

theorem answerAll_of_shut (messages : List Message) (hshut : s.isOpen = false)
    (hsent : s.closeSent = true) :
    (s.answerAll messages).2.isOpen = false ∧ (s.answerAll messages).2.closeSent = true := by
  induction messages generalizing s with
  | nil => exact ⟨hshut, hsent⟩
  | cons m messages ih =>
      obtain ⟨hstill, hstillSent⟩ := answer_of_shut m hshut hsent
      exact ih hstill hstillSent

/-- Messages without a Close leave the connection open, and one with a Close shuts it. -/
theorem answerAll_cases (messages : List Message) (hopen : s.isOpen = true)
    (halone : s.looks = leftAlone) :
    ((∀ m ∈ messages, m.op ≠ .close) ∧
        s.answerAll messages = (messages.flatMap Message.actions, s)) ∨
      ((s.answerAll messages).2.isOpen = false ∧ (s.answerAll messages).2.closeSent = true ∧
        ∀ later more refused,
          heard ((s.answerAll messages).1 ++ later) = answers (messages ++ more) refused) := by
  induction messages with
  | nil => exact .inl ⟨nofun, rfl⟩
  | cons m messages ih =>
      by_cases hop : m.op = .close
      · refine .inr ?_
        have hanswer : s.answer m =
            ([.sendClose m.data], { s with isOpen := false, closeSent := true }) := by
          simp only [answer, hop, sendFrame_of_leftAlone halone hopen]
        obtain ⟨hclosed, hsent⟩ :=
          answerAll_of_shut (s := { s with isOpen := false, closeSent := true }) messages rfl rfl
        simp only [answerAll, hanswer]
        refine ⟨hclosed, hsent, fun later more refused => ?_⟩
        have hanswers : answers (m :: messages ++ more) refused = [.sendClose m.data] := by
          rw [List.cons_append, answers, if_pos hop]
        rw [hanswers]
        rfl
      · simp only [answerAll, answer_of_ne m hop hopen halone]
        rcases ih with ⟨hnone, hall⟩ | ⟨hclosed, hsent, hheard⟩
        · rw [hall]
          exact .inl ⟨List.forall_mem_cons.mpr ⟨hop, hnone⟩, rfl⟩
        · refine .inr ⟨hclosed, hsent, fun later more refused => ?_⟩
          rw [List.append_assoc, heard_actions, hheard later more refused, List.cons_append,
            answers, if_neg hop]

theorem answers_append {messages : List Message} (h : ∀ m ∈ messages, m.op ≠ .close)
    (more : List Message) (refused : Option Refusal) :
    answers (messages ++ more) refused =
      messages.flatMap Message.actions ++ answers more refused := by
  induction messages with
  | nil => rfl
  | cons m messages ih =>
      rw [List.forall_mem_cons] at h
      rw [List.cons_append, answers, if_neg h.1, ih h.2, List.flatMap_cons, List.append_assoc]

theorem heard_flatMap (messages : List Message) (later : List Action) :
    heard (messages.flatMap Message.actions ++ later) =
      messages.flatMap Message.actions ++ heard later := by
  induction messages with
  | nil => rfl
  | cons m messages ih =>
      rw [List.flatMap_cons, List.append_assoc, heard_actions, ih, List.append_assoc]

theorem serve_of_shut (hshut : s.isOpen = false) (reads : List Bytes) : s.serve reads = [] := by
  cases reads with
  | nil => rfl
  | cons bytes reads =>
      simp only [serve, isOpen_look_of_shut hshut, Bool.false_eq_true, if_false]

theorem serve_cons (s : Serving) (bytes : Bytes) (reads : List Bytes) :
    s.serve (bytes :: reads) = if s.look.2.isOpen then
      (s.look.2.round bytes).1 ++ (s.look.2.round bytes).2.serve reads else [] := rfl

/-- **Left alone, what is done up to the first Close is that of the whole stream.** -/
theorem heard_serve (halone : s.looks = leftAlone) (hopen : s.isOpen = true)
    (hsent : s.closeSent = false) (hstatus : s.decoder.status = none)
    (hwaits : WebSocket.decoder.step s.decoder.assembly s.decoder.buf = .more)
    (reads : List Bytes) :
    heard (s.serve reads) =
      answers (WebSocket.decoder.run s.decoder.assembly (s.decoder.buf ++ reads.flatten)).out
        (WebSocket.decoder.run s.decoder.assembly (s.decoder.buf ++ reads.flatten)).refused := by
  induction reads generalizing s with
  | nil =>
      rw [List.flatten_nil, List.append_nil, Incremental.run_of_more hwaits]
      rfl
  | cons bytes reads ih =>
      obtain ⟨hrefused, hout⟩ := Incremental.run_append (M := WebSocket.decoder) s.decoder.assembly
        (s.decoder.buf ++ bytes) reads.flatten
      have hmore := Incremental.step_run (M := WebSocket.decoder) s.decoder.assembly
        (s.decoder.buf ++ bytes)
      rw [List.flatten_cons, ← List.append_assoc, hrefused, hout, serve_cons,
        look_of_leftAlone halone, if_pos hopen, round, Decoder.feed, if_neg (by simp [hstatus])]
      dsimp only
      generalize WebSocket.decoder.run s.decoder.assembly (s.decoder.buf ++ bytes) = ran at hmore ⊢
      obtain ⟨state, rest, out, refused⟩ := ran
      dsimp only at hmore ⊢
      rcases answerAll_cases (s := { s with decoder :=
          ⟨if refused.isSome then s.decoder.buf ++ bytes else rest, state, refused⟩ })
          out hopen halone with
        ⟨hnone, hall⟩ | ⟨hclosed, hsentNow, hheard⟩
      · rw [hall, answers_append hnone]
        cases refused with
        | none =>
            dsimp only
            rw [heard_flatMap]
            exact congrArg _ (ih halone hopen hsent rfl (hmore rfl))
        | some refusal =>
            dsimp only
            rw [refuse_of_leftAlone (by exact halone) (by exact hopen) (by exact hsent),
              serve_of_shut rfl, List.append_nil, heard_flatMap]
            rfl
      · cases refused with
        | none => exact hheard _ _ _
        | some refusal =>
            dsimp only
            rw [List.append_assoc]
            exact hheard _ _ _

/-! ### Whatever the other threads do -/

/-- How many Closes are sent. -/
def closes (actions : List Action) : ℕ := actions.countP Action.isClose

@[simp] theorem closes_append (first second : List Action) :
    closes (first ++ second) = closes first + closes second := List.countP_append

/-- What is handed over and what pings are answered. -/
def handed (actions : List Action) : List Action := actions.filter fun action => !action.isClose

@[simp] theorem handed_append (first second : List Action) :
    handed (first ++ second) = handed first ++ handed second := List.filter_append ..

theorem isOpen_look_le (s : Serving) : s.look.2.isOpen.toNat ≤ s.isOpen.toNat := by
  rw [look]
  cases s.isOpen
  · exact le_rfl
  · exact Bool.toNat_le _

/-- A frame is sent only on an open connection, and a send that fails shuts it. -/
theorem sendFrame_cases (s : Serving) (frame : Action) :
    (s.isOpen = true ∧ (s.sendFrame frame).1 = [frame]) ∨
      (s.sendFrame frame).1 = [] ∧ (s.sendFrame frame).2.isOpen = false := by
  cases hsends : s.look.2.isOpen && s.look.1.sends with
  | true =>
      refine .inl ⟨?_, by simp only [sendFrame, hsends, if_true]⟩
      rw [look] at hsends
      exact (Bool.and_eq_true_iff.mp (Bool.and_eq_true_iff.mp hsends).1).1
  | false =>
      exact .inr ⟨by simp only [sendFrame, hsends, Bool.false_eq_true, if_false],
        by simp only [sendFrame, hsends, Bool.false_eq_true, if_false]⟩

theorem handle_cases (s : Serving) (handler : Action) :
    (s.handle handler).1 = [handler] ∨ (s.handle handler).1 = [] := by
  simp only [handle]
  split_ifs
  · exact .inl rfl
  · exact .inr rfl

/-- A Close is sent once, and shuts the connection. -/
theorem closes_sendFrame_le (s : Serving) (frame : Action) :
    closes (s.sendFrame frame).1 ≤ s.isOpen.toNat := by
  rcases sendFrame_cases s frame with ⟨hopen, hsent⟩ | ⟨hsent, -⟩
  · rw [hsent, hopen]
    exact List.countP_le_length
  · rw [hsent]
    exact Nat.zero_le _

theorem closes_answer (s : Serving) (m : Message) :
    closes (s.answer m).1 + (s.answer m).2.isOpen.toNat ≤ s.isOpen.toNat := by
  have hhandled : ∀ handler : Action, handler.isClose = false →
      closes (s.handle handler).1 + (s.handle handler).2.isOpen.toNat ≤ s.isOpen.toNat := by
    intro handler hkind
    have hnone : closes (s.handle handler).1 = 0 := by
      rcases handle_cases s handler with h | h <;> simp [h, closes, hkind]
    rw [hnone, Nat.zero_add]
    exact isOpen_look_le s
  obtain ⟨op, data⟩ := m
  cases op with
  | text | binary => exact hhandled _ rfl
  | ping =>
      rcases sendFrame_cases s (.sendPong data) with ⟨hopen, hsent⟩ | ⟨hsent, hshut⟩
      · rw [hopen, answer, hsent]
        exact (Nat.zero_add _).trans_le (Bool.toNat_le _)
      · rw [answer, hsent, hshut]
        exact Nat.zero_le _
  | close => exact closes_sendFrame_le s _
  | continuation | pong => exact (Nat.zero_add _).le

/-- A message is answered as it calls for, or not at all. -/
theorem handed_answer (s : Serving) (m : Message) :
    (handed (s.answer m).1).Sublist m.actions := by
  have hpart : ∀ (actions : List Action) (action : Action), action.isClose = false →
      actions = [action] ∨ actions = [] → (handed actions).Sublist [action] := by
    rintro actions action hkind (rfl | rfl)
    · simp [handed, hkind]
    · exact List.nil_sublist _
  obtain ⟨op, data⟩ := m
  cases op with
  | text | binary => exact hpart _ _ rfl (handle_cases s _)
  | ping => exact hpart _ _ rfl ((sendFrame_cases s _).imp (·.2) (·.1))
  | close =>
      have hclose : handed (s.sendFrame (.sendClose data)).1 = [] := by
        rcases sendFrame_cases s (.sendClose data) with ⟨-, h⟩ | ⟨h, -⟩ <;> rw [h] <;> rfl
      exact hclose ▸ List.nil_sublist _
  | continuation | pong => exact .slnil

theorem closes_answerAll (s : Serving) (messages : List Message) :
    closes (s.answerAll messages).1 + (s.answerAll messages).2.isOpen.toNat ≤ s.isOpen.toNat := by
  induction messages generalizing s with
  | nil => exact (Nat.zero_add _).le
  | cons m messages ih =>
      have hfirst := closes_answer s m
      have hlater := ih (s.answer m).2
      simp only [answerAll, closes_append]
      omega

theorem handed_answerAll (s : Serving) (messages : List Message) :
    (handed (s.answerAll messages).1).Sublist (messages.flatMap Message.actions) := by
  induction messages generalizing s with
  | nil => exact .slnil
  | cons m messages ih =>
      simp only [answerAll, handed_append, List.flatMap_cons]
      exact (handed_answer s m).append (ih _)

theorem closes_refuse_le (s : Serving) (refusal : Refusal) :
    closes (s.refuse refusal).1 ≤ s.isOpen.toNat := by
  rw [refuse]
  split_ifs
  · exact Nat.zero_le _
  · exact closes_sendFrame_le s _

theorem handed_refuse (s : Serving) (refusal : Refusal) : handed (s.refuse refusal).1 = [] := by
  rw [refuse]
  split_ifs
  · rfl
  · rcases sendFrame_cases s (.sendClose refusal.closePayload) with ⟨-, h⟩ | ⟨h, -⟩ <;>
      exact congrArg handed h

theorem closes_round (s : Serving) (bytes : Bytes) :
    closes (s.round bytes).1 + (s.round bytes).2.isOpen.toNat ≤ s.isOpen.toNat := by
  unfold round
  generalize s.decoder.feed bytes = fed
  obtain ⟨decoder, messages⟩ := fed
  have hall := closes_answerAll { s with decoder := decoder } messages
  dsimp only at hall ⊢
  generalize answerAll { s with decoder := decoder } messages = answered at hall ⊢
  obtain ⟨actions, t⟩ := answered
  cases decoder.status with
  | none => exact hall
  | some refusal =>
      have hlast := closes_refuse_le t refusal
      have hshut : (t.refuse refusal).2.isOpen = false := rfl
      dsimp only at hall ⊢
      rw [closes_append, hshut, Bool.toNat_false]
      omega

/-- One read gives a part of what its messages call for. -/
theorem handed_round (s : Serving) (bytes : Bytes) :
    (handed (s.round bytes).1).Sublist
      ((s.decoder.feed bytes).2.flatMap Message.actions) := by
  unfold round
  generalize s.decoder.feed bytes = fed
  obtain ⟨decoder, messages⟩ := fed
  have hall := handed_answerAll { s with decoder := decoder } messages
  dsimp only
  generalize answerAll { s with decoder := decoder } messages = answered at hall ⊢
  obtain ⟨actions, t⟩ := answered
  cases decoder.status with
  | none => exact hall
  | some refusal =>
      dsimp only at hall ⊢
      rwa [handed_append, handed_refuse, List.append_nil]

@[simp] theorem decoder_sendFrame (s : Serving) (frame : Action) :
    (s.sendFrame frame).2.decoder = s.decoder := by
  simp only [sendFrame]
  split_ifs <;> rfl

theorem decoder_answer (s : Serving) (m : Message) : (s.answer m).2.decoder = s.decoder := by
  obtain ⟨op, data⟩ := m
  cases op with
  | ping | close => exact decoder_sendFrame s _
  | text | binary | continuation | pong => rfl

theorem decoder_answerAll (s : Serving) (messages : List Message) :
    (s.answerAll messages).2.decoder = s.decoder := by
  induction messages generalizing s with
  | nil => rfl
  | cons m messages ih => exact (ih (s.answer m).2).trans (decoder_answer s m)

/-- The loop goes on with the decoder as the read left it, unless the stream is refused. -/
theorem round_cases (s : Serving) (bytes : Bytes) :
    (s.round bytes).2.decoder = (s.decoder.feed bytes).1 ∧
        (s.decoder.feed bytes).1.status = none ∨
      (s.round bytes).2.isOpen = false := by
  unfold round
  generalize s.decoder.feed bytes = fed
  obtain ⟨decoder, messages⟩ := fed
  have hdecoder := decoder_answerAll { s with decoder := decoder } messages
  cases hstatus : decoder.status with
  | none => exact .inl ⟨by simpa only [hstatus] using hdecoder, rfl⟩
  | some refusal => exact .inr (by simp only [hstatus, refuse])

/-- **Whatever the other threads do**, what is handed over and answered is a part of what the
stream calls for, in its order. -/
theorem handed_serve (hstatus : s.decoder.status = none) (reads : List Bytes) :
    (handed (s.serve reads)).Sublist
      ((WebSocket.decoder.run s.decoder.assembly (s.decoder.buf ++ reads.flatten)).out.flatMap
        Message.actions) := by
  induction reads generalizing s with
  | nil => exact List.nil_sublist _
  | cons bytes reads ih =>
      rw [serve_cons]
      split
      case isFalse => exact List.nil_sublist _
      have hround := handed_round s.look.2 bytes
      have hcases := round_cases s.look.2 bytes
      have hlook : s.look.2.decoder = s.decoder := rfl
      obtain ⟨-, hout⟩ := Incremental.run_append (M := WebSocket.decoder) s.decoder.assembly
        (s.decoder.buf ++ bytes) reads.flatten
      rw [hlook, Decoder.feed, if_neg (by simp [hstatus])] at hround hcases
      rw [List.flatten_cons, ← List.append_assoc, hout, handed_append, List.flatMap_append]
      refine hround.append ?_
      rcases hcases with ⟨hdecoder, hnone⟩ | hshut
      · dsimp only at hdecoder hnone
        have hlater := ih (s := (s.look.2.round bytes).2) (by rw [hdecoder]; exact hnone)
        rw [hdecoder] at hlater
        simpa only [hnone, Option.isSome_none, Bool.false_eq_true, if_false] using hlater
      · rw [serve_of_shut hshut]
        exact List.nil_sublist _

theorem closes_serve (s : Serving) (reads : List Bytes) :
    closes (s.serve reads) ≤ s.isOpen.toNat := by
  induction reads generalizing s with
  | nil => exact Nat.zero_le _
  | cons bytes reads ih =>
      rw [serve_cons]
      split
      · have hlook := isOpen_look_le s
        have hround := closes_round s.look.2 bytes
        have hlater := ih (s.look.2.round bytes).2
        simp only [closes_append]
        omega
      · exact Nat.zero_le _

end Serving

/-- Without a Close everything is heard. -/
theorem eq_of_heard {actions spec : List Action} (h : heard actions = spec)
    (hnone : ∀ payload, .sendClose payload ∉ spec) : actions = spec := by
  induction actions generalizing spec with
  | nil => exact h
  | cons action later ih =>
      cases action with
      | sendClose payload => exact absurd (h ▸ List.mem_singleton.mpr rfl) (hnone payload)
      | onText data | onBinary data | sendPong data =>
          subst h
          exact congrArg _ (ih rfl fun payload hmem => hnone payload (List.mem_cons_of_mem _ hmem))

theorem sendClose_notMem (m : Message) (payload : Bytes) : .sendClose payload ∉ m.actions := by
  obtain ⟨op, data⟩ := m
  cases op <;> simp [Message.actions]

/-- The whole of a client's traffic is decoded. -/
theorem run_traffic {t : Traffic} (hroomy : t.Roomy) :
    (decoder.run idle (t.pieces.flatMap Prod.fst)).refused = none ∧
      (decoder.run idle (t.pieces.flatMap Prod.fst)).out = t.pieces.flatMap Prod.snd := by
  have hwhole : [t.pieces.flatMap Prod.fst].flatten = t.pieces.flatMap Prod.fst :=
    List.flatten_singleton
  obtain ⟨hstatus, hout⟩ := hroomy.delivered [t.pieces.flatMap Prod.fst] ⟨[], by simp⟩
  obtain ⟨hrefused, hrun⟩ := feedAll_new [t.pieces.flatMap Prod.fst]
  rw [hwhole] at hout hrefused hrun
  rw [hstatus] at hrefused
  rw [hout, Incremental.givenBy_of_le le_rfl] at hrun
  exact ⟨hrefused.symm, hrun.symm⟩

theorem length_greetingMask : ([1, 2, 3, 4] : Bytes).length = 4 := rfl

theorem text_or_binary : Op.text = .text ∨ Op.text = .binary := .inl rfl

/-- A short text. -/
def greeting : Traffic :=
  ⟨[], [⟨.text, [], ⟨[104, 105], [1, 2, 3, 4], length_greetingMask, []⟩, text_or_binary,
    by decide⟩]⟩

end WebSocket

end OmegaStick
