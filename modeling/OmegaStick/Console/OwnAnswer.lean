import OmegaStick.Library.Transition
import OmegaStick.Console.Transactions

/-!
# Late replies

Transactions over one link that loses nothing and keeps the order, to a device
that answers every request once, at any time and with anything.  A reply carries
no number, so an attempt may be given another request's reply; this file says
exactly when.

The steps are those of the page.  A request that is on its way, at the device, or
whose reply is on its way is unanswered; the oldest one is answered next.  What a
step ends is read from what the page's functions make of it (`ended`).  Whether it
ends only its own depends on what came before: on the attempts that were given up,
because their timer ran out, an upload was cancelled or a send failed while they
waited.  Until one of them is answered, the waiting attempt is the only other one
that is unanswered (`Tracked`).
-/

namespace OmegaStick

namespace Console

open TransitionSystem

/-! ## The link -/

/-- What took a waiting attempt down, besides its timer. -/
inductive Ending where
  /-- The reply to `request`: the attempt was resolved, or rejected with a device error. -/
  | reply (attempt request : ℕ)
  /-- The send of an attempt of `sender` failed, and an attempt of `call` was rejected. -/
  | sendFailed (call sender : ℕ)
  deriving DecidableEq, Repr

/-- The reply is that of the very attempt, and the failed send one of the very call. -/
def Ending.Own : Ending → Prop
  | reply attempt request => attempt = request
  | sendFailed call sender => call = sender

/-- Both ends of the link. Calls and attempts are numbered as they are made. -/
structure Line where
  txns : Transactions ℕ
  calls : ℕ
  /-- The attempts that are unanswered, each with its call, oldest first. -/
  unanswered : List (ℕ × ℕ)
  /-- The last reply ended an attempt, and more may come in one chunk with it. -/
  chunk : Bool
  /-- The attempts that waited when a timer ran out, an upload was cancelled or a send
  failed. -/
  givenUp : List ℕ
  endings : List Ending

inductive LineStep where
  | transact (type : Msg) (expect : List UInt8) (retries : ℕ)
  /-- The oldest unanswered request is answered. -/
  | reply (frame : ParsedFrame)
  /-- The next one is answered in the same chunk: no new attempt waits yet. -/
  | replyBehind
  | timeout
  /-- `disconnect` gives up what waits for an upload. -/
  | cancel
  /-- The send of an attempt fails: the device never sees it. -/
  | sendFailed (attempt : ℕ) (message : JsString)

namespace Line

def new : Line := ⟨.new, 0, [], false, [], []⟩

/-- The attempt that an event ended: its call settled, or was made again. -/
def ended (before : Transactions ℕ) (result : Option (ℕ × Settled) × Transactions ℕ) :
    Option (PendingTxn ℕ) :=
  before.pendingTxn.filter fun p =>
    result.1.isSome || result.2.pendingTxn.any fun q => q.attempt != p.attempt

/-- The attempt a step of the transactions made, if any. -/
def sentBy (before after : Transactions ℕ) : List (ℕ × ℕ) :=
  match after.pendingTxn with
  | none => []
  | some p => if before.attempts ≤ p.attempt then [(p.attempt, p.call.owner)] else []

/-- What the transactions sent goes onto the link. -/
def put (s : Line) (txns : Transactions ℕ) : Line :=
  { s with txns := txns, unanswered := s.unanswered ++ sentBy s.txns txns }

/-- The attempt that waits is given up. -/
def giveUp (s : Line) : Line :=
  { s with
    chunk := false
    givenUp := (s.txns.pendingTxn.map PendingTxn.attempt).toList ++ s.givenUp }

variable [BrowserText] (calibrationModule : UInt8)

def next (s : Line) : LineStep → Option Line
  | .transact type expect retries =>
      some ({ s with calls := s.calls + 1, chunk := false }.put
        (s.txns.transact ⟨type, expect, 1 + retries, s.calls⟩))
  | .reply frame =>
      match s.unanswered with
      | [] => none
      | (request, _) :: rest =>
          let result := s.txns.dispatchFrame calibrationModule frame
          some ({ s with
            unanswered := rest
            chunk := (ended s.txns result).isSome
            endings := ((ended s.txns result).map fun p : PendingTxn ℕ =>
              Ending.reply p.attempt request).toList ++ s.endings }.put result.2)
  | .replyBehind =>
      match s.unanswered with
      | [] => none
      | (request, _) :: rest =>
          -- A new attempt is made after the chunk, so its reply is not in it.
          if s.chunk && s.txns.pendingTxn.all fun p => p.attempt != request then
            some { s with unanswered := rest }
          else none
  | .timeout => some (s.giveUp.put s.txns.timeout.2)
  | .cancel => some (s.giveUp.put (s.txns.reject (js "upload cancelled by disconnect")).2)
  | .sendFailed attempt message =>
      match s.unanswered.lookup attempt with
      | none => none
      | some sender =>
          let result := s.txns.sendFailed message
          some ({ s.giveUp with
            unanswered := s.unanswered.filter fun sent => sent.1 != attempt
            endings := ((ended s.txns result).map fun p : PendingTxn ℕ =>
              Ending.sendFailed p.call.owner sender).toList ++ s.endings }.put result.2)

/-- Everything that was ended was ended by its own. -/
def Own (s : Line) : Prop := ∀ e ∈ s.endings, e.Own

/-- A reply is in time when its request was not given up before, or nothing that waits takes
a frame of its kind; a send fails in time when its attempt was not given up before, or no other
call's attempt waits. -/
def inTime (s : Line) : LineStep → Bool
  | .reply frame =>
      s.unanswered.head?.all fun sent => !s.givenUp.contains sent.1 ||
        s.txns.pendingTxn.all fun p => !p.call.takes calibrationModule frame
  | .sendFailed attempt _ =>
      !s.givenUp.contains attempt || (s.unanswered.lookup attempt).all fun sender =>
        s.txns.pendingTxn.all fun p => p.call.owner == sender
  | .transact .. | .replyBehind | .timeout | .cancel => true

end Line

/-- A link without traffic at first. -/
def line [BrowserText] (calibrationModule : UInt8) : TransitionSystem Line LineStep :=
  .ofOption (fun s => s = .new) (Line.next calibrationModule)

namespace Line

/-! ## What an event ends -/

section Ended

variable {s : Transactions ℕ} {p : PendingTxn ℕ}

/-- Attempts are numbered as they are made. -/
def Numbered (s : Transactions ℕ) : Prop := ∀ p, s.pendingTxn = some p → p.attempt < s.attempts

theorem ended_none (s : Transactions ℕ) : ended s (none, s) = none := by
  cases h : s.pendingTxn <;> simp [ended, h]

/-- An attempt that is rejected is ended: its call settles, or makes another one. -/
theorem ended_reject (hs : Numbered s) (message : JsString) :
    ended s (s.reject message) = s.pendingTxn := by
  unfold Transactions.reject
  cases hpending : s.pendingTxn with
  | none => simp [ended, hpending]
  | some p =>
      dsimp only
      split_ifs
      · have hother : s.attempts ≠ p.attempt := (hs p hpending).ne'
        simp [ended, hpending, Transactions.attempt, hother]
      · simp [ended, hpending]

variable [BrowserText]

/-- A frame ends the waiting attempt when that takes it. -/
theorem ended_dispatchFrame (hs : Numbered s) (calibrationModule : UInt8) (frame : ParsedFrame) :
    ended s (s.dispatchFrame calibrationModule frame) =
      s.pendingTxn.filter fun p => p.call.takes calibrationModule frame := by
  unfold Transactions.dispatchFrame
  cases hpending : s.pendingTxn with
  | none => simp [ended, hpending]
  | some p =>
      dsimp only
      cases htakes : p.call.takes calibrationModule frame with
      | false =>
          rw [Option.filter_some, htakes]
          exact ended_none s
      | true =>
          simp only [Bool.not_true, Bool.false_eq_true, if_false, Option.filter_some, htakes,
            if_true]
          split_ifs
          · rw [ended_reject hs, hpending]
          · simp [ended, hpending]

end Ended

/-! ## What is unanswered -/

/-- Whatever is unanswered was given up, or waits. -/
structure Tracked (s : Line) : Prop where
  numbered : Numbered s.txns
  given : ∀ n ∈ s.givenUp, n < s.txns.attempts
  waits : ∀ p, s.txns.pendingTxn = some p → p.attempt ∉ s.givenUp
  unanswered : ∀ sent ∈ s.unanswered, sent.1 ∈ s.givenUp ∨
    ∃ p, s.txns.pendingTxn = some p ∧ sent = (p.attempt, p.call.owner)
  distinct : (s.unanswered.map Prod.fst).Nodup

/-- What transactions make of the waiting attempt: another one waits instead, or none does. -/
structure MovesOn (before after : Transactions ℕ) : Prop where
  attempts : before.attempts ≤ after.attempts
  pending : ∀ p, after.pendingTxn = some p →
    p.attempt = before.attempts ∧ after.attempts = before.attempts + 1

section Tracking

variable {s t : Line} {txns : Transactions ℕ}

theorem movesOn_attempt {before s : Transactions ℕ} (h : s.attempts = before.attempts)
    (call : Call ℕ) : MovesOn before (s.attempt call) where
  attempts := h ▸ Nat.le_succ _
  pending p hp := by
    obtain rfl := Option.some.inj hp
    exact ⟨h, congrArg (· + 1) h⟩

theorem movesOn_runNext (s : Transactions ℕ) : MovesOn s s.runNext := by
  unfold Transactions.runNext
  split
  · exact ⟨le_rfl, fun p hp => by simp at hp⟩
  · exact movesOn_attempt (by rfl) _

theorem movesOn_reject (s : Transactions ℕ) (message : JsString) :
    MovesOn s (s.reject message).2 := by
  unfold Transactions.reject
  cases hpending : s.pendingTxn with
  | none => exact ⟨le_rfl, fun p hp => by simp [hpending] at hp⟩
  | some p =>
      dsimp only
      split_ifs
      · exact movesOn_attempt rfl _
      · exact movesOn_runNext s

theorem movesOn_timeout (s : Transactions ℕ) : MovesOn s s.timeout.2 := by
  unfold Transactions.timeout
  cases hpending : s.pendingTxn with
  | none => exact ⟨le_rfl, fun p hp => by simp [hpending] at hp⟩
  | some p => exact movesOn_reject s _

/-- A frame that the waiting attempt takes moves the transactions on, and another one changes
nothing. -/
theorem dispatchFrame_cases [BrowserText] (s : Transactions ℕ) (calibrationModule : UInt8)
    (frame : ParsedFrame) :
    (s.dispatchFrame calibrationModule frame).2 = s ∨
      ∃ p, s.pendingTxn = some p ∧ p.call.takes calibrationModule frame = true ∧
        MovesOn s (s.dispatchFrame calibrationModule frame).2 := by
  unfold Transactions.dispatchFrame
  cases hpending : s.pendingTxn with
  | none => exact .inl rfl
  | some p =>
      dsimp only
      cases htakes : p.call.takes calibrationModule frame with
      | false => exact .inl rfl
      | true =>
          refine .inr ⟨p, rfl, htakes, ?_⟩
          simp only [Bool.not_true, Bool.false_eq_true, if_false]
          split_ifs
          · exact movesOn_reject s _
          · exact movesOn_runNext s

/-- Where everything unanswered was given up, another attempt may wait. -/
theorem Tracked.put_movesOn (hgiven : ∀ n ∈ s.givenUp, n < s.txns.attempts)
    (hunanswered : ∀ sent ∈ s.unanswered, sent.1 ∈ s.givenUp)
    (hdistinct : (s.unanswered.map Prod.fst).Nodup) (h : MovesOn s.txns txns) :
    (s.put txns).Tracked where
  numbered p hp := by
    obtain ⟨hattempt, hattempts⟩ := h.pending p hp
    simp [put, hattempt, hattempts]
  given n hn := (hgiven n hn).trans_le h.attempts
  waits p hp hmem := by
    have hlt := hgiven _ hmem
    rw [(h.pending p hp).1] at hlt
    exact lt_irrefl _ hlt
  unanswered := by
    intro sent hsent
    rcases List.mem_append.mp hsent with hsent | hsent
    · exact .inl (hunanswered sent hsent)
    · refine .inr ?_
      cases hpending : txns.pendingTxn with
      | none => simp [sentBy, hpending] at hsent
      | some p =>
          simp only [sentBy, hpending, (h.pending p hpending).1, le_refl, if_true,
            List.mem_singleton] at hsent
          exact ⟨p, hpending, hsent.trans (by rw [(h.pending p hpending).1])⟩
  distinct := by
    have hfresh : ∀ n ∈ (sentBy s.txns txns).map Prod.fst, n = s.txns.attempts := by
      intro n hn
      cases hpending : txns.pendingTxn with
      | none => simp [sentBy, hpending] at hn
      | some p => simpa [sentBy, hpending, (h.pending p hpending).1] using hn
    have hone : ((sentBy s.txns txns).map Prod.fst).Nodup := by
      unfold sentBy
      split
      · exact List.nodup_nil
      · split_ifs <;> simp
    rw [put, List.map_append]
    refine hdistinct.append hone ?_
    intro n hold hnew
    obtain ⟨sent, hsent, rfl⟩ := List.mem_map.mp hold
    exact (hgiven _ (hunanswered sent hsent)).ne (hfresh _ hnew)

/-- What leaves the waiting attempt alone sends nothing. -/
theorem Tracked.put_same (h : s.Tracked) (hpending : txns.pendingTxn = s.txns.pendingTxn)
    (hattempts : txns.attempts = s.txns.attempts) : (s.put txns).Tracked := by
  have hnone : sentBy s.txns txns = [] := by
    unfold sentBy
    rw [hpending]
    split
    · rfl
    · rename_i p hp
      exact if_neg (Nat.not_le.mpr (h.numbered p hp))
  have hput : (s.put txns).unanswered = s.unanswered := by rw [put, hnone, List.append_nil]
  constructor
  · intro p hp
    rw [put, hattempts]
    exact h.numbered p (hpending.symm.trans hp)
  · intro n hn
    rw [put, hattempts]
    exact h.given n hn
  · exact fun p hp => h.waits p (hpending.symm.trans hp)
  · rw [hput]
    intro sent hsent
    exact (h.unanswered sent hsent).imp_right fun ⟨p, hp, heq⟩ => ⟨p, hpending.trans hp, heq⟩
  · rw [hput]
    exact h.distinct

/-- What is answered or lost is no longer to be tracked. -/
theorem Tracked.of_sublist (h : s.Tracked) (htxns : t.txns = s.txns)
    (hgiven : t.givenUp = s.givenUp) (hunanswered : t.unanswered.Sublist s.unanswered) :
    t.Tracked := by
  constructor
  · rw [htxns]
    exact h.numbered
  · rw [htxns, hgiven]
    exact h.given
  · rw [htxns, hgiven]
    exact h.waits
  · rw [htxns, hgiven]
    exact fun sent hsent => h.unanswered sent (hunanswered.subset hsent)
  · exact h.distinct.sublist (hunanswered.map _)

/-- Of the attempts on the link none is forgotten when the waiting one is given up. -/
theorem Tracked.mem_giveUp (h : s.Tracked) {sent : ℕ × ℕ} (hsent : sent ∈ s.unanswered) :
    sent.1 ∈ s.giveUp.givenUp := by
  rcases h.unanswered sent hsent with hgiven | ⟨p, hp, rfl⟩
  · exact List.mem_append_right _ hgiven
  · exact List.mem_append_left _ (by simp [hp])

theorem Tracked.given_giveUp (h : s.Tracked) : ∀ n ∈ s.giveUp.givenUp, n < s.txns.attempts := by
  intro n hn
  rcases List.mem_append.mp hn with hn | hn
  · simp only [Option.mem_toList, Option.map_eq_some_iff] at hn
    obtain ⟨p, hp, rfl⟩ := hn
    exact h.numbered p hp
  · exact h.given n hn

theorem own_append_iff (hs : s.Own) (ended : Option (PendingTxn ℕ)) (f : PendingTxn ℕ → Ending) :
    (∀ e ∈ (ended.map f).toList ++ s.endings, e.Own) ↔ ∀ p, ended = some p → (f p).Own := by
  rw [List.forall_mem_append]
  cases ended with
  | none => simpa using fun e => hs e
  | some p => simpa using fun _ e => hs e

variable [BrowserText] {calibrationModule : UInt8}

/-- The endings only grow. -/
theorem Own.of_next {step : LineStep} (h : s.next calibrationModule step = some t)
    (hown : t.Own) : s.Own := by
  have hgrows : ∃ more, t.endings = more ++ s.endings := by
    cases step with
    | transact | timeout | cancel =>
        obtain rfl := Option.some.inj h
        exact ⟨[], rfl⟩
    | reply frame =>
        simp only [next] at h
        split at h
        · cases h
        · obtain rfl := Option.some.inj h
          exact ⟨_, rfl⟩
    | replyBehind =>
        simp only [next] at h
        split at h
        · cases h
        · split at h
          · obtain rfl := Option.some.inj h
            exact ⟨[], rfl⟩
          · cases h
    | sendFailed attempt message =>
        simp only [next] at h
        split at h
        · cases h
        · obtain rfl := Option.some.inj h
          exact ⟨_, rfl⟩
  obtain ⟨more, hmore⟩ := hgrows
  exact fun e he => hown e (hmore ▸ List.mem_append_right more he)

/-- **One step** that ends only its own keeps track of what is unanswered. -/
theorem Tracked.next (h : s.Tracked) {step : LineStep}
    (ht : s.next calibrationModule step = some t) (hown : t.Own) : t.Tracked := by
  cases step with
  | transact type expect retries =>
      obtain rfl := Option.some.inj ht
      have hs : ({ s with calls := s.calls + 1, chunk := false } : Line).Tracked :=
        h.of_sublist rfl rfl (List.Sublist.refl _)
      cases hpending : s.txns.pendingTxn with
      | none =>
          have hgiven : ∀ sent ∈ s.unanswered, sent.1 ∈ s.givenUp := by
            intro sent hsent
            refine (h.unanswered sent hsent).resolve_right ?_
            rintro ⟨p, hp, -⟩
            simp [hpending] at hp
          refine Tracked.put_movesOn hs.given hgiven hs.distinct ?_
          simp only [Transactions.transact, hpending]
          exact movesOn_attempt rfl _
      | some p =>
          refine hs.put_same ?_ ?_ <;> simp [Transactions.transact, hpending]
  | reply frame =>
      simp only [Line.next] at ht
      split at ht
      · cases ht
      rename_i request call rest hunanswered
      obtain rfl := Option.some.inj ht
      have hsublist : rest.Sublist s.unanswered := hunanswered ▸ List.sublist_cons_self _ _
      rcases dispatchFrame_cases s.txns calibrationModule frame with
        hsame | ⟨p, hp, htakes, hmoves⟩
      · refine Tracked.put_same (h.of_sublist rfl rfl hsublist) ?_ ?_ <;> rw [hsame]
      · refine Tracked.put_movesOn h.given ?_ (h.distinct.sublist (hsublist.map _)) hmoves
        -- the waiting attempt was ended by its own reply, so the others were given up
        have hended : ended s.txns (s.txns.dispatchFrame calibrationModule frame) = some p := by
          rw [ended_dispatchFrame h.numbered, hp, Option.filter_some, if_pos htakes]
        have hrequest : p.attempt = request :=
          hown (.reply p.attempt request) (by simp [put, hended])
        intro sent hsent
        refine (h.unanswered sent (hsublist.subset hsent)).resolve_right ?_
        rintro ⟨q, hq, rfl⟩
        obtain rfl := Option.some.inj (hp.symm.trans hq)
        have hdistinct := h.distinct
        rw [hunanswered, List.map_cons, List.nodup_cons] at hdistinct
        exact hdistinct.1 (List.mem_map.mpr ⟨_, hsent, hrequest⟩)
  | replyBehind =>
      simp only [Line.next] at ht
      split at ht
      · cases ht
      rename_i request call rest hunanswered
      split at ht
      · obtain rfl := Option.some.inj ht
        exact h.of_sublist rfl rfl (hunanswered ▸ List.sublist_cons_self _ _)
      · cases ht
  | timeout =>
      obtain rfl := Option.some.inj ht
      exact .put_movesOn h.given_giveUp (fun _ => h.mem_giveUp) h.distinct
        (movesOn_timeout s.txns)
  | cancel =>
      obtain rfl := Option.some.inj ht
      exact .put_movesOn h.given_giveUp (fun _ => h.mem_giveUp) h.distinct
        (movesOn_reject s.txns _)
  | sendFailed attempt message =>
      simp only [Line.next] at ht
      split at ht
      · cases ht
      obtain rfl := Option.some.inj ht
      have hsublist : (s.unanswered.filter fun sent => sent.1 != attempt).Sublist s.unanswered :=
        List.filter_sublist
      exact .put_movesOn h.given_giveUp (fun _ hsent => h.mem_giveUp (hsublist.subset hsent))
        (h.distinct.sublist (hsublist.map _)) (movesOn_reject s.txns _)

/-- **One step** ends nothing but its own exactly when it is in time. -/
theorem own_next_iff (h : s.Tracked) (hs : s.Own) {step : LineStep}
    (ht : s.next calibrationModule step = some t) :
    t.Own ↔ s.inTime calibrationModule step = true := by
  cases step with
  | transact | timeout | cancel =>
      obtain rfl := Option.some.inj ht
      exact iff_of_true hs rfl
  | replyBehind =>
      simp only [next] at ht
      split at ht
      · cases ht
      split at ht
      · obtain rfl := Option.some.inj ht
        exact iff_of_true hs rfl
      · cases ht
  | reply frame =>
      simp only [next] at ht
      split at ht
      · cases ht
      rename_i request call rest hunanswered
      obtain rfl := Option.some.inj ht
      refine (own_append_iff hs _ _).trans ?_
      rw [ended_dispatchFrame h.numbered, inTime, hunanswered]
      cases hpending : s.txns.pendingTxn with
      | none => simp
      | some p =>
          cases htakes : p.call.takes calibrationModule frame with
          | false => simp [Option.filter_some, htakes]
          | true =>
              have hwaits := h.waits p hpending
              have hhead := h.unanswered (request, call) (hunanswered ▸ List.mem_cons_self)
              simp only [hpending, Option.some.injEq, exists_eq_left', Prod.mk.injEq] at hhead
              simp only [Option.filter_some, htakes, if_true, Option.some.injEq, forall_eq',
                Ending.Own, List.head?_cons, Option.all_some, Bool.not_true, Bool.or_false,
                Bool.not_eq_true', List.contains_eq_mem, decide_eq_false_iff_not]
              constructor
              · rintro rfl
                exact hwaits
              · intro hnot
                exact (hhead.resolve_left hnot).1.symm
  | sendFailed attempt message =>
      simp only [next] at ht
      split at ht
      · cases ht
      rename_i sender hsender
      obtain rfl := Option.some.inj ht
      refine (own_append_iff hs _ _).trans ?_
      rw [Transactions.sendFailed, ended_reject h.numbered, inTime, hsender]
      cases hpending : s.txns.pendingTxn with
      | none => simp
      | some p =>
          obtain ⟨before, after, hsplit, -⟩ := List.lookup_eq_some_iff.mp hsender
          have hsent := h.unanswered (attempt, sender) (by simp [hsplit])
          simp only [hpending, Option.some.injEq, exists_eq_left', Prod.mk.injEq] at hsent
          simp only [Option.some.injEq, forall_eq', Ending.Own, Option.all_some, Bool.or_eq_true,
            Bool.not_eq_true', List.contains_eq_mem, decide_eq_false_iff_not, beq_iff_eq]
          constructor
          · exact .inr
          · rintro (hnot | howner)
            · exact (hsent.resolve_left hnot).2.symm
            · exact howner

end Tracking

/-! ## Every run -/

theorem tracked_new : Line.new.Tracked :=
  ⟨fun _ hp => absurd hp (by simp [new, Transactions.new]), by simp [new], by simp [new],
    by simp [new], by simp [new]⟩

/-- **A run** ends every attempt by its own reply, and every call by its own
failed send, exactly when all of its steps are in time. -/
theorem ownAnswer_iff [BrowserText] {calibrationModule : UInt8} {t : Line}
    {steps : List (Line × LineStep × Line)} (h : Path (line calibrationModule) .new steps t) :
    (∀ x ∈ steps, x.2.2.Own) ↔ ∀ x ∈ steps, x.1.inTime calibrationModule x.2.1 = true := by
  refine h.forall_iff (I := fun s => s.Own → s.Tracked) (Q := Own)
    (C := fun s step => s.inTime calibrationModule step = true) ?_ ?_ (fun _ => tracked_new)
    (by simp [Own, new])
  · intro s step t hs ht hown
    exact (hs (.of_next ht hown)).next ht hown
  · intro s step t hs hown ht
    exact own_next_iff (hs hown) hown ht

/-! ## A reply that comes late -/

/-- A reply of the calibration module. -/
def okReply : ParsedFrame := ⟨0x11, true, none, moduleCalibration, Msg.ok.code, putU32 0⟩

/-- One setting after the other, each answered before its timer runs out. -/
def promptReplies : List LineStep :=
  [.transact .setManualOffset [Msg.ok.code] 1, .transact .saveToFlash [Msg.ok.code] 0,
    .reply okReply, .reply okReply, .timeout]

theorem ownAnswer_promptReplies :
    ∃ steps t, Path (line moduleCalibration) .new steps t ∧ (∀ x ∈ steps, x.2.2.Own) ∧
      t.endings = [.reply 1 1, .reply 0 0] := by
  have hrun : (runOption (fun s step => if s.inTime moduleCalibration step = true then
      s.next moduleCalibration step else none) Line.new promptReplies).map Line.endings =
        some [.reply 1 1, .reply 0 0] := by
    decide +kernel
  obtain ⟨t, ht, hendings⟩ := Option.map_eq_some_iff.mp hrun
  obtain ⟨steps, hpath, hall⟩ := path_of_runOption_guarded (fun s => s = Line.new) ht
  exact ⟨steps, t, hpath, (ownAnswer_iff hpath).mpr hall, hendings⟩

/-- The answer to a setting comes after its timer ran out and it was sent again. -/
def lateReply : List LineStep :=
  [.transact .setManualOffset [Msg.ok.code] 1, .timeout, .reply okReply]

/-- The second attempt is resolved by the reply to the first. -/
theorem not_ownAnswer_lateReply :
    ¬ ∀ s, Reachable (line moduleCalibration) s → s.Own := by
  intro hall
  have hrun : (runOption (Line.next moduleCalibration) .new lateReply).map Line.endings =
      some [.reply 1 0] := by
    decide +kernel
  obtain ⟨t, ht, hendings⟩ := Option.map_eq_some_iff.mp hrun
  obtain ⟨steps, hpath⟩ := path_of_runOption (fun s => s = Line.new) ht
  have hown := hall t (hpath.reachable (.init rfl)) (.reply 1 0) (by simp [hendings])
  exact absurd hown (by simp [Ending.Own])

end Line

end Console

end OmegaStick
