import OmegaStick.Console.ConfirmRun

/-!
# Only a checked image is confirmed

The page keeps its runs to their connections by what its calls are: a call of a run
waits only while the run's connection is the transport (`Page.Waits`).

That holds as long as no connection is opened while another one is up.  A run
tests its connection before it calls `transact`, not when the call gets its turn,
so a connection that replaces a live one in between is given the MARK_VALID.
-/

namespace OmegaStick

namespace Console

open TransitionSystem

/-! ## Runs and their calls -/

namespace ConfirmRun

variable {run : ConfirmRun} {stale : Bool}

theorem wake_conn : (run.wake stale).1.conn = run.conn := by
  unfold wake
  split
  · split <;> rfl
  · rfl

theorem good_wake [BrowserText] (hrun : run.Good) : (run.wake stale).1.Good := by
  obtain ⟨conn, pc, log⟩ := run
  cases pc with
  | asleep started healthySince =>
      cases stale with
      | true =>
          obtain ⟨sensor, hwatching, hchecked⟩ := hrun
          exact good_stop (hchecked.unmarked (unmarked_of_readings hwatching.readings))
      | false => exact hrun
  | firmware | protocol | sensor | marking | marked | verifying | done => exact hrun

/-- A run that wakes calls only if it was asleep and is not stale. -/
theorem wake_call {call : Call Unit} (h : (run.wake stale).2 = some call) :
    (run.wake stale).1.pc.awaits call.type = true ∧ stale = false := by
  obtain ⟨conn, pc, log⟩ := run
  cases pc with
  | asleep started healthySince =>
      cases stale with
      | true => exact nomatch h
      | false =>
          obtain rfl := Option.some.inj h
          exact ⟨rfl, rfl⟩
  | firmware | protocol | sensor | marking | marked | verifying | done => exact nomatch h

/-- A run that waits for a call does not wake. -/
theorem wake_of_awaits {type : Msg} (h : run.pc.awaits type = true) :
    run.wake stale = (run, none) := by
  obtain ⟨conn, pc, log⟩ := run
  cases pc with
  | asleep started healthySince => exact nomatch h
  | firmware | protocol | sensor | marking | marked | verifying | done => rfl

/-- What `noteSent` does to the run. -/
def sent (run : ConfirmRun) (target : ConnId) (interrupted : Bool) : ConfirmRun :=
  if run.pc = .marking then { run.see (.markValid target interrupted) with pc := .marked }
  else run

theorem sent_conn {target : ConnId} {interrupted : Bool} :
    (run.sent target interrupted).conn = run.conn := by
  unfold sent
  split <;> rfl

theorem sent_awaits {target : ConnId} {interrupted : Bool} {type : Msg} :
    (run.sent target interrupted).pc.awaits type = run.pc.awaits type := by
  obtain ⟨conn, pc, log⟩ := run
  cases pc <;> first | rfl | cases type <;> rfl

theorem good_sent [BrowserText] (hrun : run.Good) : (run.sent run.conn false).Good := by
  unfold sent
  split_ifs with hmarking
  · unfold Good at hrun
    rw [hmarking] at hrun
    obtain ⟨sensor, hsensor, hchecked⟩ := hrun
    exact ⟨sensor, hsensor, hchecked.append _⟩
  · exact hrun

end ConfirmRun

namespace Page

/-! ## What waits -/

/-- No call of the run waits. -/
def Free (s : Page) (i : ℕ) : Prop := ∀ call ∈ s.txns.calls, call.owner ≠ some i

/-- The calls and the runs that wait for them. -/
structure Waits [BrowserText] (s : Page) : Prop where
  inTurn : s.txns.InTurn
  idle : s.transport = none → s.txns.calls = []
  /-- A call of a run waits while the run waits for it and is connected. -/
  owned : ∀ call ∈ s.txns.calls, ∀ i, call.owner = some i → ∃ run, s.runs[i]? = some run ∧
    run.pc.awaits call.type = true ∧ s.transport = some run.conn
  /-- A run has one call at most. -/
  once : s.txns.calls.Pairwise fun a b => ∀ i, a.owner = some i → b.owner ≠ some i
  good : ∀ run ∈ s.runs, run.Good

theorem conn_of_stale {s : Page} {run : ConfirmRun} (h : s.stale run = false) :
    s.transport = some run.conn := by
  simp only [stale, Bool.or_eq_false_iff, bne_eq_false_iff_eq] at h
  exact h.1

section Waits

variable [BrowserText] {s : Page}

/-- The update is none of it. -/
theorem Waits.setUpd (h : s.Waits) (upd : Option Update) : ({ s with upd := upd } : Page).Waits :=
  ⟨h.inTurn, h.idle, h.owned, h.once, h.good⟩

/-- A run without a call changes. -/
theorem Waits.set (h : s.Waits) {i : ℕ} (hfree : s.Free i) {run : ConfirmRun} (hrun : run.Good) :
    ({ s with runs := s.runs.set i run } : Page).Waits where
  inTurn := h.inTurn
  idle := h.idle
  owned call hcall j hj := by
    have hne : i ≠ j := by
      rintro rfl
      exact hfree call hcall hj
    obtain ⟨other, hget, hother⟩ := h.owned call hcall j hj
    exact ⟨other, by rw [List.getElem?_set_ne hne]; exact hget, hother⟩
  once := h.once
  good other hother := by
    rcases List.mem_or_eq_of_mem_set hother with hmem | rfl
    · exact h.good other hmem
    · exact hrun

/-- A call is made on a page that is connected. -/
theorem Waits.transact (h : s.Waits) (hconnected : s.transport ≠ none) (call : Call (Option ℕ))
    (howner : ∀ i, call.owner = some i → s.Free i ∧ ∃ run, s.runs[i]? = some run ∧
      run.pc.awaits call.type = true ∧ s.transport = some run.conn) :
    ({ s with txns := s.txns.transact call } : Page).Waits where
  inTurn := Transactions.inTurn_transact call
  idle hidle := absurd hidle hconnected
  owned other hother i hi := by
    rw [Transactions.calls_transact h.inTurn, List.mem_append, List.mem_singleton] at hother
    rcases hother with hother | rfl
    · exact h.owned other hother i hi
    · exact (howner i hi).2
  once := by
    rw [Transactions.calls_transact h.inTurn, List.pairwise_append]
    refine ⟨h.once, List.pairwise_singleton _ _, fun a ha b hb i hi hib => ?_⟩
    obtain rfl := List.mem_singleton.mp hb
    exact (howner i hib).1 a ha hi
  good := h.good

theorem Waits.callFor (h : s.Waits) {i : ℕ} (hfree : s.Free i) {run : ConfirmRun}
    (hget : s.runs[i]? = some run) {call : Call Unit} (hawaits : run.pc.awaits call.type = true)
    (hconn : s.transport = some run.conn) : (s.callFor i call).Waits := by
  refine h.transact (by simp [hconn]) _ fun j hj => ?_
  obtain rfl := Option.some.inj hj
  exact ⟨hfree, run, hget, hawaits, hconn⟩

/-- A run without a call goes on to a state that calls. -/
theorem Waits.goOn (h : s.Waits) {i : ℕ} (hfree : s.Free i) {run next : ConfirmRun}
    (hget : s.runs[i]? = some run) (hnext : next.Good) (upd : Option Update) {call : Call Unit}
    (hawaits : next.pc.awaits call.type = true) (hconn : s.transport = some next.conn) :
    (({ s with runs := s.runs.set i next, upd := upd } : Page).callFor i call).Waits := by
  have hi : i < s.runs.length := (List.getElem?_eq_some_iff.mp hget).1
  exact ((h.set hfree hnext).setUpd upd).callFor hfree (List.getElem?_set_self hi) hawaits hconn

/-- A call that does not wait any more settles: with a reply while its run is
connected, or else with an error. -/
theorem Waits.settle (h : s.Waits) {source : ConnId} {now : Time} {owner : Option ℕ}
    {settled : Settled} (hfree : ∀ i, owner = some i → s.Free i)
    (hsource : ∀ frame, settled = .resolved frame → ∀ i run, owner = some i →
      s.runs[i]? = some run → source = run.conn ∧ s.transport = some run.conn) :
    (s.settle source now (owner, settled)).Waits := by
  cases owner with
  | none => exact h
  | some i =>
      unfold Page.settle
      cases hget : s.runs[i]? with
      | none => simpa [hget] using h
      | some run =>
          have hgood : run.Good := h.good run (List.mem_of_getElem? hget)
          have hresumed : (run.resume (s.stale run) s.upd source now settled).run.Good :=
            ConfirmRun.good_resume hgood fun frame hframe => (hsource frame hframe i run rfl hget).1
          simp only [hget]
          cases hcall : (run.resume (s.stale run) s.upd source now settled).call with
          | none => exact (h.set (hfree i rfl) hresumed).setUpd _
          | some made =>
              obtain ⟨hawaits, hstale⟩ := ConfirmRun.resume_call hcall
              refine h.goOn (hfree i rfl) hget hresumed _ hawaits ?_
              rw [ConfirmRun.resume_conn]
              cases hs : s.stale run with
              | false => exact conn_of_stale hs
              | true =>
                  obtain ⟨frame, hframe⟩ := hstale hs
                  exact (hsource frame hframe i run rfl hget).2

end Waits

/-! ## The connections -/

/-- The connections alone. -/
def links (s : Page) : Option ConnId × ℕ × List ConnId × List ConnId :=
  (s.transport, s.connections, s.opened, s.gone)

/-- One connection at a time, and none of them twice. -/
structure Linked (s : Page) : Prop where
  opened : s.opened = s.transport.toList
  live : ∀ c, s.transport = some c → c < s.connections ∧ c ∉ s.gone
  gone : ∀ c ∈ s.gone, c < s.connections

theorem Linked.of_links {s t : Page} (h : s.Linked) (heq : t.links = s.links) : t.Linked := by
  simp only [links, Prod.mk.injEq] at heq
  obtain ⟨htransport, hconnections, hopened, hgone⟩ := heq
  refine ⟨?_, ?_, ?_⟩
  · rw [hopened, htransport, h.opened]
  · rw [htransport, hconnections, hgone]
    exact h.live
  · rw [hconnections, hgone]
    exact h.gone

theorem links_noteSent {s : Page} : s.noteSent.links = s.links := by
  unfold noteSent
  split <;> rfl

section Took

variable [BrowserText] {s : Page}

theorem links_settle {source : ConnId} {now : Time} {settled : Option ℕ × Settled} :
    (s.settle source now settled).links = s.links := by
  unfold settle
  split
  · rfl
  · split
    · rfl
    · dsimp only
      split <;> rfl

theorem links_apply {source : ConnId} {now : Time}
    {result : Option (Option ℕ × Settled) × Transactions (Option ℕ)} :
    (s.apply source now result).links = s.links := by
  unfold apply
  refine links_noteSent.trans ?_
  split
  · rfl
  · exact links_settle

/-! ## What comes of a step of the transactions -/

/-- The MARK_VALID of a run goes out over its connection. -/
theorem Waits.noteSent (h : s.Waits) (hlinked : s.Linked) : s.noteSent.Waits := by
  unfold Page.noteSent
  split
  · rename_i expect attempts i attempt target hpending htransport
    obtain ⟨run, hget, hawaits, hconn⟩ := h.owned _
      (by rw [Transactions.calls_of_pending hpending]; exact List.mem_cons_self) i rfl
    obtain rfl : target = run.conn := Option.some.inj (htransport.symm.trans hconn)
    have hgone : run.conn ∉ s.gone := (hlinked.live _ htransport).2
    refine ⟨h.inTurn, h.idle, fun call hcall j hj => ?_, h.once, fun other hother => ?_⟩
    · obtain ⟨other, hother, hwaits, hother_conn⟩ := h.owned call hcall j hj
      by_cases hij : i = j
      · subst hij
        obtain rfl : run = other := Option.some.inj (hget.symm.trans hother)
        exact ⟨run.sent run.conn (decide (run.conn ∈ s.gone)),
          by rw [List.getElem?_modify_eq, hget]; rfl,
          ConfirmRun.sent_awaits.trans hwaits, by rw [ConfirmRun.sent_conn]; exact hconn⟩
      · exact ⟨other, by rw [List.getElem?_modify_ne _ _ hij, hother], hwaits, hother_conn⟩
    · obtain ⟨j, hj⟩ := List.mem_iff_getElem?.mp hother
      by_cases hij : i = j
      · subst hij
        rw [List.getElem?_modify_eq, hget] at hj
        obtain rfl := Option.some.inj hj
        have hsent : (run.sent run.conn (decide (run.conn ∈ s.gone))).Good := by
          rw [decide_eq_false hgone]
          exact ConfirmRun.good_sent (h.good run (List.mem_of_getElem? hget))
        exact hsent
      · rw [List.getElem?_modify_ne _ _ hij] at hj
        exact h.good other (List.mem_of_getElem? hj)
  · exact h

/-- The call that waited is made again, or settles. -/
theorem Waits.apply (h : s.Waits) (hlinked : s.Linked) {source : ConnId} {now : Time}
    {result : Option (Option ℕ × Settled) × Transactions (Option ℕ)}
    (htook : Transactions.Took s.txns result)
    (hsource : ∀ owner frame, result.1 = some (owner, .resolved frame) →
      s.transport = some source) :
    (s.apply source now result).Waits := by
  unfold Page.apply
  cases htook with
  | kept => exact Waits.noteSent h hlinked
  -- the same call waits again, for its own run
  | again p call hpending htype howner =>
      have hcalls := Transactions.calls_of_pending hpending
      refine Waits.noteSent ⟨Transactions.inTurn_attempt call, fun hidle => ?_, ?_, ?_, h.good⟩
        (hlinked.of_links rfl)
      · exact absurd (h.idle hidle) (by simp [hcalls])
      · have howned := h.owned
        rw [hcalls, List.forall_mem_cons] at howned
        rw [Transactions.calls_attempt, List.forall_mem_cons, htype, howner]
        exact howned
      · have honce := h.once
        rw [hcalls, List.pairwise_cons] at honce
        rw [Transactions.calls_attempt, List.pairwise_cons, howner]
        exact honce
  | settled p settled hpending =>
      have hcalls := Transactions.calls_of_pending hpending
      have honce := h.once
      have howned := h.owned
      rw [hcalls, List.pairwise_cons] at honce
      rw [hcalls, List.forall_mem_cons] at howned
      -- the runs that wait are those of the calls that are left
      have hrest : ({ s with txns := s.txns.runNext } : Page).Waits := by
        refine ⟨Transactions.inTurn_runNext, fun hidle => ?_, ?_, ?_, h.good⟩
        · exact absurd (h.idle hidle) (by simp [hcalls])
        · rw [Transactions.calls_runNext]
          exact howned.2
        · rw [Transactions.calls_runNext]
          exact honce.2
      refine Waits.noteSent (Waits.settle hrest ?_ ?_) (hlinked.of_links links_settle)
      · intro i hi call hcall
        rw [Transactions.calls_runNext] at hcall
        exact honce.1 call hcall i hi
      -- the run that goes on does so on a frame of its own connection
      · rintro frame rfl i run hi hget
        obtain ⟨other, hother, -, hconn⟩ := howned.1 i hi
        obtain rfl : run = other := Option.some.inj (hget.symm.trans hother)
        have hsame : some source = some run.conn := (hsource _ frame rfl).symm.trans hconn
        exact ⟨Option.some.inj hsame, hconn⟩

end Took

/-! ## Every step -/

/-- The connections and the calls of the runs. -/
structure Inv [BrowserText] (s : Page) : Prop where
  linked : s.Linked
  waits : s.Waits

section Steps

variable [BrowserText] {s t : Page}

theorem Inv.new : Page.new.Inv where
  linked := ⟨rfl, fun _ h => (nomatch h), fun _ h => nomatch h⟩
  waits := ⟨fun _ => rfl, fun _ => rfl, fun _ h => (nomatch h), .nil, fun _ h => nomatch h⟩

theorem Inv.apply (h : s.Inv) {source : ConnId} {now : Time}
    {result : Option (Option ℕ × Settled) × Transactions (Option ℕ)}
    (htook : Transactions.Took s.txns result)
    (hsource : ∀ owner frame, result.1 = some (owner, .resolved frame) →
      s.transport = some source) : (s.apply source now result).Inv where
  linked := h.linked.of_links links_apply
  waits := h.waits.apply h.linked htook hsource

/-- A connection is opened when none is up. -/
theorem Inv.connect (h : s.Inv) (hdown : s.transport = none) (ht : s.next .connect = some t) :
    t.Inv := by
  obtain rfl := Option.some.inj ht
  have hcalls : s.txns.calls = [] := h.waits.idle hdown
  refine ⟨⟨?_, ?_, ?_⟩, ⟨h.waits.inTurn, fun hidle => (nomatch hidle), ?_, h.waits.once,
    h.waits.good⟩⟩
  · simp [h.linked.opened, hdown]
  · intro c hc
    obtain rfl := Option.some.inj hc
    refine ⟨Nat.lt_succ_self _, fun hgone => ?_⟩
    exact lt_irrefl _ (h.linked.gone _ (by simpa [hdown] using hgone))
  · intro c hc
    exact Nat.lt_succ_of_lt (h.linked.gone c (by simpa [hdown] using hc))
  · intro call hcall
    exact absurd hcall (by simp [hcalls])

/-- Calls are rejected on a page that is not connected: no run calls again. -/
theorem Waits.settleAll (c : ConnId) (settled : List (Option ℕ × Settled)) :
    ∀ {s : Page}, s.Waits → s.transport = none →
      (∀ x ∈ settled, ∃ message, x.2 = .rejected message) →
      (settled.foldl (fun s x => s.settle c 0 x) s).Waits ∧
        (settled.foldl (fun s x => s.settle c 0 x) s).links = s.links := by
  induction settled with
  | nil => exact fun h _ _ => ⟨h, rfl⟩
  | cons x settled ih =>
      intro s h hdown hrejected
      obtain ⟨owner, answer⟩ := x
      obtain ⟨⟨message, hanswer⟩, hlater⟩ := List.forall_mem_cons.mp hrejected
      obtain rfl : answer = .rejected message := hanswer
      have hcalls : s.txns.calls = [] := h.idle hdown
      have hone : (s.settle c 0 (owner, .rejected message)).Waits :=
        h.settle (fun i _ call hcall => by simp [hcalls] at hcall) fun _ hframe => nomatch hframe
      have hlinks : (s.settle c 0 (owner, .rejected message)).links = s.links := links_settle
      have hdown' : (s.settle c 0 (owner, .rejected message)).transport = none :=
        (congrArg Prod.fst hlinks).trans hdown
      obtain ⟨hrest, hsame⟩ := ih hone hdown' hlater
      exact ⟨hrest, hsame.trans hlinks⟩

/-- The connection goes away, and every call with it. -/
theorem Inv.drop (h : s.Inv) {manual : Bool} (ht : s.next (.drop manual) = some t) : t.Inv := by
  simp only [next] at ht
  split at ht
  · exact nomatch ht
  · rename_i c htransport
    obtain rfl := Option.some.inj ht
    have hcalls := Transactions.drop_snd_calls h.waits.inTurn
      (js (if manual then "disconnected" else "transport lost"))
    have hlive := h.linked.live c htransport
    have hdropped : ({ s with
        transport := none
        opened := s.opened.erase c
        gone := c :: s.gone
        calibrationModule := moduleCalibration
        txns := (s.txns.drop (js (if manual then "disconnected" else "transport lost"))).2 } :
          Page).Inv := by
      refine ⟨⟨?_, fun _ hc => (nomatch hc), ?_⟩, ⟨?_, fun _ => hcalls, ?_, ?_, h.waits.good⟩⟩
      · simp [h.linked.opened, htransport]
      · exact List.forall_mem_cons.mpr ⟨hlive.1, h.linked.gone⟩
      · exact Transactions.inTurn_drop h.waits.inTurn _
      · simp [hcalls]
      · simp [hcalls]
    obtain ⟨hwaits, hlinks⟩ := hdropped.waits.settleAll c
      (s.txns.drop (js (if manual then "disconnected" else "transport lost"))).1 rfl
      fun x hx => Transactions.drop_rejected hx
    exact ⟨hdropped.linked.of_links hlinks, hwaits⟩

/-- A run begins with its first check. -/
theorem Inv.confirmFlashedImage (h : s.Inv) (ht : s.next .confirmFlashedImage = some t) :
    t.Inv := by
  simp only [next] at ht
  split at ht
  · exact nomatch ht
  · rename_i c htransport
    split at ht
    · exact nomatch ht
    · obtain rfl := Option.some.inj ht
      have hfree : s.Free s.runs.length := by
        intro call hcall howner
        obtain ⟨run, hget, -⟩ := h.waits.owned call hcall _ howner
        exact absurd (List.getElem?_eq_some_iff.mp hget).1 (lt_irrefl _)
      have hbegun : ({ s with runs := s.runs ++ [⟨c, .firmware, []⟩] } : Page).Waits := by
        refine ⟨h.waits.inTurn, h.waits.idle, fun call hcall i hi => ?_, h.waits.once, ?_⟩
        · obtain ⟨run, hget, hrun⟩ := h.waits.owned call hcall i hi
          have hlt : i < s.runs.length := (List.getElem?_eq_some_iff.mp hget).1
          exact ⟨run, by rw [List.getElem?_append_left hlt]; exact hget, hrun⟩
        · rw [List.forall_mem_append, List.forall_mem_singleton]
          exact ⟨h.waits.good, rfl⟩
      exact ⟨h.linked.of_links rfl,
        hbegun.callFor hfree List.getElem?_concat_length rfl htransport⟩

/-- A run asks the sensor again. -/
theorem Inv.wake (h : s.Inv) {i : ℕ} (ht : s.next (.wake i) = some t) : t.Inv := by
  simp only [next] at ht
  split at ht
  · exact nomatch ht
  · rename_i run hget
    obtain rfl := Option.some.inj ht
    have hgood : (run.wake (s.stale run)).1.Good :=
      ConfirmRun.good_wake (h.waits.good run (List.mem_of_getElem? hget))
    by_cases hfree : s.Free i
    · cases hcall : (run.wake (s.stale run)).2 with
      | none => exact ⟨h.linked.of_links rfl, h.waits.set hfree hgood⟩
      | some call =>
          obtain ⟨hawaits, hstale⟩ := ConfirmRun.wake_call hcall
          refine ⟨h.linked.of_links rfl, h.waits.goOn hfree hget hgood s.upd hawaits ?_⟩
          rw [ConfirmRun.wake_conn]
          exact conn_of_stale hstale
    · -- It waits for a call, so it is not asleep.
      simp only [Free, not_forall, not_not] at hfree
      obtain ⟨call, hcall, howner⟩ := hfree
      obtain ⟨other, hother, hawaits, -⟩ := h.waits.owned call hcall i howner
      obtain rfl : run = other := Option.some.inj (hget.symm.trans hother)
      have hsame : s.runs.set i run = s.runs := by
        obtain ⟨hi, hrun⟩ := List.getElem?_eq_some_iff.mp hget
        rw [← hrun, List.set_getElem_self]
      simp only [ConfirmRun.wake_of_awaits hawaits, hsame]
      exact h

/-- No connection is opened while another one is up. -/
def oneConnection (s : Page) : PageStep → Prop
  | .connect => s.transport = none
  | _ => True

theorem Inv.next (h : s.Inv) {step : PageStep} (hstep : s.oneConnection step)
    (ht : s.next step = some t) : t.Inv := by
  cases step with
  | connect => exact h.connect hstep ht
  | drop manual => exact h.drop ht
  | frame source now frame =>
      simp only [Page.next] at ht
      split at ht
      · rename_i hopened
        obtain rfl := Option.some.inj ht
        -- the only settlement that resolves, with a frame of the connection that is open
        refine h.apply (Transactions.took_dispatchFrame _ _) fun _ _ _ => ?_
        simpa [h.linked.opened] using hopened
      · exact nomatch ht
  | timeout now =>
      obtain rfl := Option.some.inj ht
      -- the others reject
      refine h.apply Transactions.took_timeout fun owner frame hsettled => ?_
      obtain ⟨message, hmessage⟩ := Transactions.timeout_rejected hsettled
      exact nomatch hmessage
  | sendFailed now message =>
      obtain rfl := Option.some.inj ht
      refine h.apply (Transactions.took_reject _) fun owner frame hsettled => ?_
      obtain ⟨message, hmessage⟩ := Transactions.reject_rejected hsettled
      exact nomatch hmessage
  | cancel now =>
      obtain rfl := Option.some.inj ht
      refine h.apply (Transactions.took_reject _) fun owner frame hsettled => ?_
      obtain ⟨message, hmessage⟩ := Transactions.reject_rejected hsettled
      exact nomatch hmessage
  | transact type expect retries =>
      simp only [Page.next] at ht
      split at ht
      · rename_i hconnected
        obtain rfl := Option.some.inj ht
        exact ⟨h.linked.of_links rfl, h.waits.transact (Option.isSome_iff_ne_none.mp hconnected)
          _ fun _ howner => nomatch howner⟩
      · exact nomatch ht
  | setUpdate upd =>
      obtain rfl := Option.some.inj ht
      exact ⟨h.linked.of_links rfl, h.waits.setUpd upd⟩
  | setModule id =>
      obtain rfl := Option.some.inj ht
      exact ⟨h.linked.of_links rfl,
        ⟨h.waits.inTurn, h.waits.idle, h.waits.owned, h.waits.once, h.waits.good⟩⟩
  | confirmFlashedImage => exact h.confirmFlashedImage ht
  | wake i => exact h.wake ht

theorem inv_of_reachable (h : Reachable (page.restrict oneConnection) s) : s.Inv := by
  refine Reachable.invariant (I := Inv) ?_ ?_ h
  · rintro s rfl
    exact .new
  · rintro s step t hs ⟨ht, hstep⟩
    exact hs.next hstep ht

end Steps

/-! ## Every run -/

/-- **Only a checked image is confirmed**, as long as no connection is opened while
another one is up: a run that sent MARK_VALID had all of its checks pass before, in
order, and on the connection it is sent over; and a run that was stopped sends none. -/
theorem markValid_checked [BrowserText] {s : Page}
    (h : Reachable (page.restrict oneConnection) s) {run : ConfirmRun} (hrun : run ∈ s.runs) :
    (∀ target interrupted, .markValid target interrupted ∈ run.log → Sent run.conn run.log) ∧
      (.stopped ∈ run.log → Unmarked run.log) := by
  have hgood : run.Good := (inv_of_reachable h).waits.good run hrun
  have hsent : ∀ target interrupted, .markValid target interrupted ∈ run.log →
      Sent run.conn run.log := fun target interrupted hmem =>
    hgood.unmarked_or_sent.resolve_left fun hunmarked => hunmarked target interrupted hmem
  exact ⟨hsent, fun hstopped target interrupted hmem =>
    (hsent target interrupted hmem).not_stopped hstopped⟩

/-! ## The image that is confirmed -/

/-- A reply of the calibration module. -/
def reply (type : Msg) (payload : List UInt8) : ParsedFrame :=
  ⟨0x11, true, none, moduleCalibration, type.code, payload⟩

/-- Pending, and version 2. -/
def fwInfoPayload : List UInt8 := [1, 0, 0, 1, 50]

/-- The page expects version 2 after version 1. -/
def updateToTwo : Update := ⟨.confirming, ⟨⟨js "2", []⟩, ⟨js "1", []⟩⟩⟩

/-- Healthy. -/
def diagnosticsPayload : List UInt8 := List.replicate 11 0

/-- The checks, up to the reading that passes the last one. -/
def passChecks : List PageStep :=
  [.connect, .setUpdate (some updateToTwo), .confirmFlashedImage,
    .frame 0 100 (reply .fwInfo fwInfoPayload), .frame 0 200 (reply .state []),
    .frame 0 300 (reply .diagnostics diagnosticsPayload), .wake 0]

instance (s : Page) (step : PageStep) : Decidable (s.oneConnection step) := by
  cases step <;> unfold oneConnection <;> infer_instance

/-- Every check passes, and the image is confirmed. -/
def confirmed : List PageStep :=
  passChecks ++ [.frame 0 1900 (reply .diagnostics diagnosticsPayload)]

/-- What the run has seen by then, with MARK_VALID sent to `target`. -/
def confirmedLog (target : ConnId) (interrupted : Bool) : List CheckEvent :=
  [.fwInfo 0 updateToTwo.expected (readFwInfo fwInfoPayload), .state 0, .diagnostics 0 300 0,
    .diagnostics 0 1900 0, .markValid target interrupted]

theorem markValid_checked_confirmed :
    ∃ s run, Reachable (page.restrict oneConnection) s ∧ run ∈ s.runs ∧
      .markValid 0 false ∈ run.log ∧ Sent run.conn run.log := by
  have hrun : (runOption (fun s step => if s.oneConnection step then s.next step else none) new
      confirmed).map Page.runs = some [⟨0, .marked, confirmedLog 0 false⟩] := by
    decide +kernel
  obtain ⟨s, hs, hruns⟩ := Option.map_eq_some_iff.mp hrun
  obtain ⟨steps, hpath, hall⟩ := path_of_runOption_guarded (fun s => s = Page.new) hs
  have hreachable : Reachable (page.restrict oneConnection) s :=
    (hpath.restrict hall).reachable (.init rfl)
  have hmem : (⟨0, .marked, confirmedLog 0 false⟩ : ConfirmRun) ∈ s.runs := by simp [hruns]
  have hsent : .markValid 0 false ∈ confirmedLog 0 false := by simp [confirmedLog]
  exact ⟨s, _, hreachable, hmem, hsent, (markValid_checked hreachable hmem).1 0 false hsent⟩

/-- The page asks for diagnostics while the last reading is on its way, so MARK_VALID
has to wait; then a second connection replaces the first, and the call in front of
MARK_VALID is made again, and answered, there. -/
def replaced : List PageStep :=
  passChecks ++
    [.transact .getDiagnostics [Msg.diagnostics.code] 1,
      .frame 0 1900 (reply .diagnostics diagnosticsPayload), .connect, .timeout 5000,
      .frame 1 5100 (reply .diagnostics diagnosticsPayload)]

/-- MARK_VALID goes out over a connection on which nothing was checked. -/
theorem not_markValid_checked_replaced :
    ¬ ∀ s, Reachable page s → ∀ run ∈ s.runs, ∀ target interrupted,
      .markValid target interrupted ∈ run.log → Sent run.conn run.log := by
  intro hall
  have hrun : (runOption Page.next new replaced).map Page.runs =
      some [⟨0, .marked, confirmedLog 1 true⟩] := by
    decide +kernel
  obtain ⟨s, hs, hruns⟩ := Option.map_eq_some_iff.mp hrun
  obtain ⟨steps, hpath⟩ := path_of_runOption (fun s => s = Page.new) hs
  have hmem : (⟨0, .marked, confirmedLog 1 true⟩ : ConfirmRun) ∈ s.runs := by simp [hruns]
  have hmarked : .markValid 1 true ∈ confirmedLog 1 true := by simp [confirmedLog]
  have htarget : (1 : ConnId) = 0 :=
    (hall s (hpath.reachable (.init rfl)) _ hmem 1 true hmarked).target hmarked
  exact absurd htarget (by decide)

end Page

end Console

end OmegaStick
