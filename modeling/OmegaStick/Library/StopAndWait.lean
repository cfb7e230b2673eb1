import Mathlib.Data.Nat.Notation
import OmegaStick.Library.Transition

/-!
# Stop and wait

A client makes the requests of a plan one after the other, each when the one before it
was accepted, over a queue in each direction that keeps the order and may lose.  Nothing
is made twice: a request that is refused, or whose reply does not come, ends the plan.
Other requests may go between, as long as no reply to one can be taken for an acceptance,
and the link is quiet at first: a reply to something asked before the plan began is none.

`Serves` is what a server has to keep of a property that counts the requests of the plan
it accepted.  `Serves.of_reachable` says that then every run keeps it in step with the
client: the server is at most one request ahead of what the client knows.
-/

universe u v w

/-- A plan, and the server it is for. -/
structure StopAndWait (σ : Type u) (ρ : Type v) (π : Type w) where
  /-- The requests, in order. -/
  plan : List ρ
  /-- The server takes a request, and replies. -/
  serve : σ → ρ → π → σ → Prop
  /-- What else happens to the server. -/
  other : σ → σ → Prop
  accepts : π → Bool
  refuses : π → Bool
  /-- What the server may say unasked. -/
  unsolicited : π → Prop
  /-- Requests the client may make at any time besides. -/
  beside : ρ → Prop
  /-- Requests the client may make once it gave up. -/
  closing : ρ → Prop

namespace StopAndWait

/-- The client, with the number of requests it knows to be accepted. -/
inductive Client where
  | ready (accepted : ℕ)
  | waiting (accepted : ℕ)
  | gaveUp (accepted : ℕ)
  deriving DecidableEq, Repr

def Client.accepted : Client → ℕ
  | ready accepted | waiting accepted | gaveUp accepted => accepted

structure State (σ : Type u) (ρ : Type v) (π : Type w) where
  client : Client
  /-- The requests on their way, oldest first. -/
  requests : List ρ
  server : σ
  /-- The replies on their way, oldest first. -/
  replies : List π

inductive Event (ρ : Type v) (π : Type w) where
  | send
  | beside (request : ρ)
  | closing (request : ρ)
  | loseRequest
  /-- The oldest request is served; the reply is lost unless it is `queued`. -/
  | serve (reply : π) (queued : Bool)
  | other
  | notify (reply : π)
  | receive
  | giveUp

variable {σ : Type u} {ρ : Type v} {π : Type w}

/-- What the client makes of a reply. -/
def react (E : StopAndWait σ ρ π) : Client → π → Client
  | .waiting n, reply =>
      if E.accepts reply then .ready (n + 1) else if E.refuses reply then .gaveUp n else .waiting n
  | client, _ => client

inductive Step (E : StopAndWait σ ρ π) : State σ ρ π → Event ρ π → State σ ρ π → Prop where
  | send {s : State σ ρ π} {n : ℕ} {request : ρ} (hclient : s.client = .ready n)
      (hplan : E.plan[n]? = some request) :
      Step E s .send { s with client := .waiting n, requests := s.requests ++ [request] }
  | beside {s : State σ ρ π} {request : ρ} (hbeside : E.beside request) :
      Step E s (.beside request) { s with requests := s.requests ++ [request] }
  | closing {s : State σ ρ π} {n : ℕ} {request : ρ} (hclient : s.client = .gaveUp n)
      (hclosing : E.closing request) :
      Step E s (.closing request) { s with requests := s.requests ++ [request] }
  | loseRequest {s : State σ ρ π} {request : ρ} {rest : List ρ}
      (hrequests : s.requests = request :: rest) :
      Step E s .loseRequest { s with requests := rest }
  | serve {s : State σ ρ π} {request : ρ} {rest : List ρ} {reply : π} {server : σ} (queued : Bool)
      (hrequests : s.requests = request :: rest) (hserve : E.serve s.server request reply server) :
      Step E s (.serve reply queued)
        { s with
          requests := rest
          server := server
          replies := if queued then s.replies ++ [reply] else s.replies }
  | other {s : State σ ρ π} {server : σ} (hother : E.other s.server server) :
      Step E s .other { s with server := server }
  | notify {s : State σ ρ π} {reply : π} (hunsolicited : E.unsolicited reply) :
      Step E s (.notify reply) { s with replies := s.replies ++ [reply] }
  | receive {s : State σ ρ π} {reply : π} {rest : List π} (hreplies : s.replies = reply :: rest) :
      Step E s .receive { s with client := E.react s.client reply, replies := rest }
  | giveUp {s : State σ ρ π} :
      Step E s .giveUp { s with client := .gaveUp s.client.accepted }

/-- Nothing on its way is an acceptance or will be answered with one. -/
structure Quiet (E : StopAndWait σ ρ π) (s : State σ ρ π) : Prop where
  requests : ∀ request ∈ s.requests, E.beside request
  replies : ∀ reply ∈ s.replies, E.accepts reply = false

/-- The runs that start on a quiet link, with nothing of the plan sent.  On a link that is not
quiet, a late acceptance of an earlier request would be taken for one of the plan's. -/
def system (E : StopAndWait σ ρ π) (init : σ → Prop) :
    TransitionSystem (State σ ρ π) (Event ρ π) where
  init s := s.client = .ready 0 ∧ init s.server ∧ E.Quiet s
  step := Step E

/-! ## One among others -/

/-- `x` once, and `p` of everything else. -/
def Single {α : Type*} (p : α → Prop) (x : α) (xs : List α) : Prop :=
  ∃ before after, xs = before ++ x :: after ∧ (∀ y ∈ before, p y) ∧ ∀ y ∈ after, p y

section Single

variable {α : Type*} {p q : α → Prop} {x y : α} {xs : List α}

theorem single_append (h : ∀ y ∈ xs, p y) : Single p x (xs ++ [x]) :=
  ⟨xs, [], rfl, h, fun _ hy => nomatch hy⟩

theorem Single.append (h : Single p x xs) (hy : p y) : Single p x (xs ++ [y]) := by
  obtain ⟨before, after, rfl, hbefore, hafter⟩ := h
  refine ⟨before, after ++ [y], by simp, hbefore, ?_⟩
  simpa [or_imp, forall_and] using ⟨hafter, hy⟩

theorem Single.mono (h : Single p x xs) (hpq : ∀ y, p y → q y) : Single q x xs := by
  obtain ⟨before, after, rfl, hbefore, hafter⟩ := h
  exact ⟨before, after, rfl, fun y hy => hpq y (hbefore y hy), fun y hy => hpq y (hafter y hy)⟩

/-- The first is either the one, or one of the others. -/
theorem Single.cases (h : Single p x (y :: xs)) :
    (y = x ∧ ∀ z ∈ xs, p z) ∨ (p y ∧ Single p x xs) := by
  obtain ⟨before, after, heq, hbefore, hafter⟩ := h
  cases before with
  | nil =>
      obtain ⟨rfl, rfl⟩ := List.cons.inj heq
      exact .inl ⟨rfl, hafter⟩
  | cons first before =>
      obtain ⟨rfl, rfl⟩ := List.cons.inj heq
      rw [List.forall_mem_cons] at hbefore
      exact .inr ⟨hbefore.1, before, after, rfl, hbefore.2, hafter⟩

end Single

/-! ## The rule -/

/-- `P n` is kept by the server, `n` counting the requests of the plan it accepted. -/
structure Serves (E : StopAndWait σ ρ π) (P : ℕ → σ → Prop) : Prop where
  accepted : ∀ {n s request reply t}, P n s → E.plan[n]? = some request →
    E.serve s request reply t → E.accepts reply = true → P (n + 1) t
  refused : ∀ {n s request reply t}, P n s → E.plan[n]? = some request →
    E.serve s request reply t → E.accepts reply = false → P n t
  beside : ∀ {n s request reply t}, P n s → E.beside request → E.serve s request reply t →
    P n t ∧ E.accepts reply = false
  closing : ∀ {n s request reply t}, P n s → E.closing request → E.serve s request reply t → P n t
  other : ∀ {n s t}, P n s → E.other s t → P n t
  unsolicited : ∀ {reply}, E.unsolicited reply → E.accepts reply = false

variable {E : StopAndWait σ ρ π} {P : ℕ → σ → Prop} {s t : State σ ρ π}

/-- Requests that cannot move the plan, once the client gave up. -/
def Idle (E : StopAndWait σ ρ π) (request : ρ) : Prop := E.beside request ∨ E.closing request

/-- Where the request of the plan that was sent last is, if anywhere. -/
inductive Stage (E : StopAndWait σ ρ π) (P : ℕ → σ → Prop) (s : State σ ρ π) : Prop where
  | ready (n : ℕ) (hclient : s.client = .ready n) (hserver : P n s.server)
      (hrequests : ∀ request ∈ s.requests, E.beside request)
      (hreplies : ∀ reply ∈ s.replies, E.accepts reply = false)
  /-- on its way to the server -/
  | asked (n : ℕ) (request : ρ) (hclient : s.client = .waiting n)
      (hplan : E.plan[n]? = some request) (hserver : P n s.server)
      (hrequests : Single E.beside request s.requests)
      (hreplies : ∀ reply ∈ s.replies, E.accepts reply = false)
  /-- its acceptance on the way back -/
  | answered (n : ℕ) (reply : π) (hclient : s.client = .waiting n)
      (haccepts : E.accepts reply = true) (hserver : P (n + 1) s.server)
      (hrequests : ∀ request ∈ s.requests, E.beside request)
      (hreplies : Single (fun reply => E.accepts reply = false) reply s.replies)
  /-- lost, refused, or served with the reply lost -/
  | silent (n : ℕ) (hclient : s.client = .waiting n)
      (hserver : P n s.server ∨ P (n + 1) s.server)
      (hrequests : ∀ request ∈ s.requests, E.beside request)
      (hreplies : ∀ reply ∈ s.replies, E.accepts reply = false)
  /-- on its way to the server, and nobody waits for it -/
  | late (n : ℕ) (request : ρ) (hclient : s.client = .gaveUp n)
      (hplan : E.plan[n]? = some request) (hserver : P n s.server)
      (hrequests : Single E.Idle request s.requests)
  | ended (n : ℕ) (hclient : s.client = .gaveUp n) (hserver : P n s.server ∨ P (n + 1) s.server)
      (hrequests : ∀ request ∈ s.requests, E.Idle request)

namespace Stage

theorem beside_idle (request : ρ) (h : E.beside request) : E.Idle request := .inl h

theorem forall_append {α : Type*} {p : α → Prop} {x : α} {xs : List α} (h : ∀ y ∈ xs, p y)
    (hx : p x) : ∀ y ∈ xs ++ [x], p y := by
  simpa [or_imp, forall_and] using ⟨h, hx⟩

theorem send (h : E.Stage P s) {n : ℕ} {request : ρ} (hclient : s.client = .ready n)
    (hplan : E.plan[n]? = some request) :
    E.Stage P { s with client := .waiting n, requests := s.requests ++ [request] } := by
  cases h with
  | ready m hready hserver hrequests hreplies =>
      obtain rfl : m = n := by simpa [hready] using hclient
      exact .asked m request rfl hplan hserver (single_append hrequests) hreplies
  | asked m _ hother | answered m _ hother | silent m hother | late m _ hother | ended m hother =>
      exact nomatch hclient.symm.trans hother

theorem addBeside (h : E.Stage P s) {request : ρ} (hbeside : E.beside request) :
    E.Stage P { s with requests := s.requests ++ [request] } := by
  cases h with
  | ready n hclient hserver hrequests hreplies =>
      exact .ready n hclient hserver (forall_append hrequests hbeside) hreplies
  | asked n sent hclient hplan hserver hrequests hreplies =>
      exact .asked n sent hclient hplan hserver (hrequests.append hbeside) hreplies
  | answered n reply hclient haccepts hserver hrequests hreplies =>
      exact .answered n reply hclient haccepts hserver (forall_append hrequests hbeside) hreplies
  | silent n hclient hserver hrequests hreplies =>
      exact .silent n hclient hserver (forall_append hrequests hbeside) hreplies
  | late n sent hclient hplan hserver hrequests =>
      exact .late n sent hclient hplan hserver (hrequests.append (.inl hbeside))
  | ended n hclient hserver hrequests =>
      exact .ended n hclient hserver (forall_append hrequests (.inl hbeside))

theorem addClosing (h : E.Stage P s) {n : ℕ} {request : ρ} (hclient : s.client = .gaveUp n)
    (hclosing : E.closing request) :
    E.Stage P { s with requests := s.requests ++ [request] } := by
  cases h with
  | late m sent hlate hplan hserver hrequests =>
      exact .late m sent hlate hplan hserver (hrequests.append (.inr hclosing))
  | ended m hover hserver hrequests =>
      exact .ended m hover hserver (forall_append hrequests (.inr hclosing))
  | ready m hother | asked m _ hother | answered m _ hother | silent m hother =>
      exact nomatch hclient.symm.trans hother

theorem lose (h : E.Stage P s) {request : ρ} {rest : List ρ}
    (hrequests : s.requests = request :: rest) : E.Stage P { s with requests := rest } := by
  have htail : ∀ {p : ρ → Prop}, (∀ r ∈ s.requests, p r) → ∀ r ∈ rest, p r := fun h r hr =>
    h r (hrequests ▸ List.mem_cons_of_mem _ hr)
  cases h with
  | ready n hclient hserver hbeside hreplies =>
      exact .ready n hclient hserver (htail hbeside) hreplies
  | asked n sent hclient hplan hserver hsingle hreplies =>
      rw [hrequests] at hsingle
      rcases hsingle.cases with ⟨rfl, hbeside⟩ | ⟨-, hsingle⟩
      · exact .silent n hclient (.inl hserver) hbeside hreplies
      · exact .asked n sent hclient hplan hserver hsingle hreplies
  | answered n reply hclient haccepts hserver hbeside hreplies =>
      exact .answered n reply hclient haccepts hserver (htail hbeside) hreplies
  | silent n hclient hserver hbeside hreplies =>
      exact .silent n hclient hserver (htail hbeside) hreplies
  | late n sent hclient hplan hserver hsingle =>
      rw [hrequests] at hsingle
      rcases hsingle.cases with ⟨rfl, hidle⟩ | ⟨-, hsingle⟩
      · exact .ended n hclient (.inl hserver) hidle
      · exact .late n sent hclient hplan hserver hsingle
  | ended n hclient hserver hidle => exact .ended n hclient hserver (htail hidle)

/-- The request sent last goes from the one queue into the other. -/
theorem serve (hserves : E.Serves P) (h : E.Stage P s) {request : ρ} {rest : List ρ} {reply : π}
    {server : σ} (queued : Bool) (hrequests : s.requests = request :: rest)
    (hserve : E.serve s.server request reply server) :
    E.Stage P { s with
      requests := rest
      server := server
      replies := if queued then s.replies ++ [reply] else s.replies } := by
  have hfirst : request ∈ s.requests := hrequests ▸ List.mem_cons_self ..
  have htail : ∀ {p : ρ → Prop}, (∀ r ∈ s.requests, p r) → ∀ r ∈ rest, p r := fun h r hr =>
    h r (hrequests ▸ List.mem_cons_of_mem _ hr)
  have hquiet : (∀ r ∈ s.replies, E.accepts r = false) → E.accepts reply = false →
      ∀ r ∈ if queued then s.replies ++ [reply] else s.replies, E.accepts r = false := by
    intro hreplies hreply
    split
    · exact forall_append hreplies hreply
    · exact hreplies
  have hidle : ∀ {n : ℕ}, P n s.server → E.Idle request → P n server := by
    rintro n hserver (hbeside | hclosing)
    · exact (hserves.beside hserver hbeside hserve).1
    · exact hserves.closing hserver hclosing hserve
  cases h with
  | ready n hclient hserver hbeside hreplies =>
      obtain ⟨hkept, hreply⟩ := hserves.beside hserver (hbeside _ hfirst) hserve
      exact .ready n hclient hkept (htail hbeside) (hquiet hreplies hreply)
  | asked n sent hclient hplan hserver hsingle hreplies =>
      rw [hrequests] at hsingle
      rcases hsingle.cases with ⟨rfl, hbeside⟩ | ⟨hhead, hsingle⟩
      · cases hreply : E.accepts reply with
        | false =>
            exact .silent n hclient (.inl (hserves.refused hserver hplan hserve hreply)) hbeside
              (hquiet hreplies hreply)
        | true =>
            have hnext := hserves.accepted hserver hplan hserve hreply
            cases queued with
            | false => exact .silent n hclient (.inr hnext) hbeside hreplies
            | true => exact .answered n reply hclient hreply hnext hbeside (single_append hreplies)
      · obtain ⟨hkept, hreply⟩ := hserves.beside hserver hhead hserve
        exact .asked n sent hclient hplan hkept hsingle (hquiet hreplies hreply)
  | answered n sent hclient haccepts hserver hbeside hsingle =>
      obtain ⟨hkept, hreply⟩ := hserves.beside hserver (hbeside _ hfirst) hserve
      refine .answered n sent hclient haccepts hkept (htail hbeside) ?_
      dsimp only
      split
      · exact hsingle.append hreply
      · exact hsingle
  | silent n hclient hserver hbeside hreplies =>
      have hkept : P n server ∨ P (n + 1) server :=
        hserver.imp (fun h => hidle h (.inl (hbeside _ hfirst)))
          fun h => hidle h (.inl (hbeside _ hfirst))
      have hreply : E.accepts reply = false := by
        rcases hserver with hserver | hserver
        · exact (hserves.beside hserver (hbeside _ hfirst) hserve).2
        · exact (hserves.beside hserver (hbeside _ hfirst) hserve).2
      exact .silent n hclient hkept (htail hbeside) (hquiet hreplies hreply)
  | late n sent hclient hplan hserver hsingle =>
      rw [hrequests] at hsingle
      rcases hsingle.cases with ⟨rfl, hrest⟩ | ⟨hhead, hsingle⟩
      · cases hreply : E.accepts reply with
        | false =>
            exact .ended n hclient (.inl (hserves.refused hserver hplan hserve hreply)) hrest
        | true =>
            exact .ended n hclient (.inr (hserves.accepted hserver hplan hserve hreply)) hrest
      · exact .late n sent hclient hplan (hidle hserver hhead) hsingle
  | ended n hclient hserver hrest =>
      exact .ended n hclient (hserver.imp (hidle · (hrest _ hfirst)) (hidle · (hrest _ hfirst)))
        (htail hrest)

theorem other (hserves : E.Serves P) (h : E.Stage P s) {server : σ}
    (hother : E.other s.server server) : E.Stage P { s with server := server } := by
  cases h with
  | ready n hclient hserver hrequests hreplies =>
      exact .ready n hclient (hserves.other hserver hother) hrequests hreplies
  | asked n sent hclient hplan hserver hrequests hreplies =>
      exact .asked n sent hclient hplan (hserves.other hserver hother) hrequests hreplies
  | answered n reply hclient haccepts hserver hrequests hreplies =>
      exact .answered n reply hclient haccepts (hserves.other hserver hother) hrequests hreplies
  | silent n hclient hserver hrequests hreplies =>
      exact .silent n hclient (hserver.imp (hserves.other · hother) (hserves.other · hother))
        hrequests hreplies
  | late n sent hclient hplan hserver hrequests =>
      exact .late n sent hclient hplan (hserves.other hserver hother) hrequests
  | ended n hclient hserver hrequests =>
      exact .ended n hclient (hserver.imp (hserves.other · hother) (hserves.other · hother))
        hrequests

theorem notify (h : E.Stage P s) {reply : π} (hreply : E.accepts reply = false) :
    E.Stage P { s with replies := s.replies ++ [reply] } := by
  cases h with
  | ready n hclient hserver hrequests hreplies =>
      exact .ready n hclient hserver hrequests (forall_append hreplies hreply)
  | asked n sent hclient hplan hserver hrequests hreplies =>
      exact .asked n sent hclient hplan hserver hrequests (forall_append hreplies hreply)
  | answered n sent hclient haccepts hserver hrequests hreplies =>
      exact .answered n sent hclient haccepts hserver hrequests (hreplies.append hreply)
  | silent n hclient hserver hrequests hreplies =>
      exact .silent n hclient hserver hrequests (forall_append hreplies hreply)
  | late n sent hclient hplan hserver hrequests =>
      exact .late n sent hclient hplan hserver hrequests
  | ended n hclient hserver hrequests => exact .ended n hclient hserver hrequests

/-- Only the acceptance of the request sent last moves the client on. -/
theorem receive (h : E.Stage P s) {reply : π} {rest : List π}
    (hreplies : s.replies = reply :: rest) :
    E.Stage P { s with client := E.react s.client reply, replies := rest } := by
  have htail : ∀ {p : π → Prop}, (∀ r ∈ s.replies, p r) → p reply ∧ ∀ r ∈ rest, p r := fun h => by
    rw [hreplies, List.forall_mem_cons] at h
    exact h
  cases h with
  | ready n hclient hserver hrequests hquiet =>
      rw [hclient]
      exact .ready n rfl hserver hrequests (htail hquiet).2
  | asked n sent hclient hplan hserver hrequests hquiet =>
      obtain ⟨hreply, hrest⟩ := htail hquiet
      rw [hclient]
      simp only [react, hreply, Bool.false_eq_true, if_false]
      split
      · exact .late n sent rfl hplan hserver (hrequests.mono beside_idle)
      · exact .asked n sent rfl hplan hserver hrequests hrest
  | answered n sent hclient haccepts hserver hrequests hsingle =>
      rw [hreplies] at hsingle
      rw [hclient]
      rcases hsingle.cases with ⟨rfl, hrest⟩ | ⟨hreply, hsingle⟩
      · simp only [react, haccepts, if_true]
        exact .ready (n + 1) rfl hserver hrequests hrest
      · simp only [react, hreply, Bool.false_eq_true, if_false]
        split
        · exact .ended n rfl (.inr hserver) fun r hr => .inl (hrequests r hr)
        · exact .answered n sent rfl haccepts hserver hrequests hsingle
  | silent n hclient hserver hrequests hquiet =>
      obtain ⟨hreply, hrest⟩ := htail hquiet
      rw [hclient]
      simp only [react, hreply, Bool.false_eq_true, if_false]
      split
      · exact .ended n rfl hserver fun r hr => .inl (hrequests r hr)
      · exact .silent n rfl hserver hrequests hrest
  | late n sent hclient hplan hserver hrequests =>
      rw [hclient]
      exact .late n sent rfl hplan hserver hrequests
  | ended n hclient hserver hrequests =>
      rw [hclient]
      exact .ended n rfl hserver hrequests

theorem giveUp (h : E.Stage P s) : E.Stage P { s with client := .gaveUp s.client.accepted } := by
  cases h with
  | ready n hclient hserver hrequests hreplies =>
      rw [hclient]
      exact .ended n rfl (.inl hserver) fun r hr => .inl (hrequests r hr)
  | asked n sent hclient hplan hserver hrequests hreplies =>
      rw [hclient]
      exact .late n sent rfl hplan hserver (hrequests.mono beside_idle)
  | answered n reply hclient haccepts hserver hrequests hreplies =>
      rw [hclient]
      exact .ended n rfl (.inr hserver) fun r hr => .inl (hrequests r hr)
  | silent n hclient hserver hrequests hreplies =>
      rw [hclient]
      exact .ended n rfl hserver fun r hr => .inl (hrequests r hr)
  | late n sent hclient hplan hserver hrequests =>
      rw [hclient]
      exact .late n sent rfl hplan hserver hrequests
  | ended n hclient hserver hrequests =>
      rw [hclient]
      exact .ended n rfl hserver hrequests

theorem step (hserves : E.Serves P) (h : E.Stage P s) {event : Event ρ π}
    (hstep : Step E s event t) : E.Stage P t := by
  cases hstep with
  | send hclient hplan => exact h.send hclient hplan
  | beside hbeside => exact h.addBeside hbeside
  | closing hclient hclosing => exact h.addClosing hclient hclosing
  | loseRequest hrequests => exact h.lose hrequests
  | serve queued hrequests hserve => exact h.serve hserves queued hrequests hserve
  | other hother => exact h.other hserves hother
  | notify hunsolicited => exact h.notify (hserves.unsolicited hunsolicited)
  | receive hreplies => exact h.receive hreplies
  | giveUp => exact h.giveUp

/-- The server is where the client thinks it is, or one request ahead. -/
theorem progress (h : E.Stage P s) :
    P s.client.accepted s.server ∨ P (s.client.accepted + 1) s.server := by
  cases h with
  | ready n hclient hserver => exact .inl (hclient ▸ hserver)
  | asked n request hclient hplan hserver => exact .inl (hclient ▸ hserver)
  | answered n reply hclient haccepts hserver => exact .inr (hclient ▸ hserver)
  | silent n hclient hserver => exact hclient ▸ hserver
  | late n request hclient hplan hserver => exact .inl (hclient ▸ hserver)
  | ended n hclient hserver => exact hclient ▸ hserver

/-- A client that waits for nothing is in step with the server. -/
theorem server_of_ready (h : E.Stage P s) {n : ℕ} (hclient : s.client = .ready n) :
    P n s.server := by
  cases h with
  | ready m hready hserver =>
      obtain rfl : m = n := by simpa [hready] using hclient
      exact hserver
  | asked m _ hother | answered m _ hother | silent m hother | late m _ hother | ended m hother =>
      exact nomatch hclient.symm.trans hother

end Stage

variable {init : σ → Prop}

/-- **What the server keeps, every run keeps in step with the client.** -/
theorem Serves.of_reachable (hserves : E.Serves P) (hinit : ∀ s, init s → P 0 s)
    (hs : (E.system init).Reachable s) : E.Stage P s := by
  refine TransitionSystem.Reachable.invariant (I := E.Stage P) ?_ ?_ hs
  · rintro s ⟨hclient, hserver, hquiet⟩
    exact .ready 0 hclient (hinit _ hserver) hquiet.requests hquiet.replies
  · intro s event t h hstep
    exact h.step hserves hstep

/-- Where the server can always accept the next request, a run carries the plan out. -/
theorem exists_completed (init : σ → Prop)
    (hserve : ∀ {n s request}, P n s → E.plan[n]? = some request →
      ∃ reply t, E.serve s request reply t ∧ E.accepts reply = true ∧ P (n + 1) t)
    {server : σ} (hinit : init server) (hserver : P 0 server) :
    ∃ done, (E.system init).Reachable ⟨.ready E.plan.length, [], done, []⟩ ∧
      P E.plan.length done := by
  have hupTo : ∀ n ≤ E.plan.length, ∃ done,
      (E.system init).Reachable ⟨.ready n, [], done, []⟩ ∧ P n done := by
    intro n
    induction n with
    | zero =>
        intro _
        exact ⟨server, .init ⟨rfl, hinit, ⟨by simp, by simp⟩⟩, hserver⟩
    | succ n ih =>
        intro hn
        obtain ⟨before, hreached, hbefore⟩ := ih (Nat.le_of_succ_le hn)
        have hplan : E.plan[n]? = some E.plan[n] := List.getElem?_eq_getElem hn
        obtain ⟨reply, done, hserved, haccepts, hdone⟩ := hserve hbefore hplan
        have hsent := hreached.step (.send rfl hplan)
        have hanswered := hsent.step (.serve true rfl hserved)
        have hreceived := hanswered.step (.receive (show [reply] = reply :: [] from rfl))
        refine ⟨done, ?_, hdone⟩
        simpa [react, haccepts] using hreceived
  exact hupTo _ (Nat.le_refl _)

end StopAndWait
