import Mathlib.Data.List.Perm.Basic
import C11Http.Windows.Live

/-! # The targets of the windows server

The completion routine of a send does not look at its connection: it takes the front of a queue of
identifiers that the private `send` has pushed to. `Attributed` is what is to hold: the queue has
one entry for each send that is outstanding, what is reported for a send has the identifier of its
connection, and each send is reported once, as complete or as failed.

`attributes_iff`: as long as the server is not shut down it holds in every state of a run if and
only if every step is `InTurn`. `Server::send` pushes a second entry for its send; a send that fails
leaves its entry behind; one that completes at once is reported by the server and again by its
completion routine; and of sends to different clients that complete in another order than they have
begun, the routine reports the wrong one. A broadcast that turns to a deleted connection, or the
routine for one, is undefined, and its send is never reported. What is left are broadcasts to
clients that stay, whose sends are pending and complete in turn. -/

namespace C11Http.Windows

open C11Http.Lib.Run

/-- An event with the number of a send. -/
def Event.numbered : Event → Bool
  | .sending _ _ _ => true
  | .sendComplete _ _ _ => true
  | .sendFailed _ _ _ => true
  | _ => false

/-- A report of the send with this number. -/
def Event.reports (number : ℕ) : Event → Bool
  | .sendComplete n _ _ => n == number
  | .sendFailed n _ _ => n == number
  | _ => false

theorem Event.reports_of_not_numbered {e : Event} (h : e.numbered = false) (number : ℕ) :
    e.reports number = false := by
  cases e with
  | sendComplete n identifier count => cases h
  | sendFailed n identifier message => cases h
  | _ => rfl

/-- The private `send` has been called by `broadcast`. -/
def Caller.Broadcasts : Caller → Prop
  | .send _ => False
  | .broadcast _ _ => True

/-- Of a queue with the labels of the elements of a list, the front is taken and one element. -/
theorem perm_pop_iff {α β : Type*} [DecidableEq α] {f : α → β} {l : List α} {a : α} {target : β}
    {rest : List β} (ha : a ∈ l) (h : (target :: rest).Perm (l.map f)) :
    rest.Perm ((l.erase a).map f) ↔ target = f a := by
  have hcons : (target :: rest).Perm (f a :: (l.erase a).map f) :=
    h.trans ((List.perm_cons_erase ha).map f)
  constructor
  · intro hrest
    have hsame : ([target] ++ rest).Perm ([f a] ++ rest) := hcons.trans (hrest.symm.cons (f a))
    exact List.singleton_perm_singleton.mp ((List.perm_append_right_iff rest).mp hsame)
  · rintro rfl
    exact hcons.cons_inv

namespace Server

open Connections

variable {s t u : Server}

/-- How often a send has been reported. -/
def reports (s : Server) (number : ℕ) : ℕ := s.trace.countP (Event.reports number)

/-- The identifier of the send that has come to its `WSASend`. -/
def underWay (s : Server) : List Bytes :=
  s.sending.toList.map fun e => (s.heap e.connection).mIdentifier

/-- **Completions are attributed to the right client.** -/
structure Attributed (s : Server) : Prop where
  targets : s.targets.Perm (s.sends.map Send.identifier ++ s.underWay)
  completions : ∀ number identifier count p identifier',
    .sendComplete number identifier count ∈ s.trace →
    .sending number p identifier' ∈ s.trace → identifier = identifier'
  reported : s.mCallback = true → ∀ number < s.nextSend, s.reports number ≤ 1 ∧
    (number ∉ s.sends.map Send.number → s.reports number = 1)

/-- A send that `Server::send` has made does not come to its end; no send fails, or is made or
completed on a connection that has been deleted; and the completion routine runs for a send to the
front of the targets that has not been reported. -/
def InTurn (s : Server) (a : Action) : Prop :=
  s.mHasBeenShutdown = false →
    match a with
    | .wsaSend .pending => ∀ e ∈ s.sending,
        e.connection ∈ s.mConnections.mContainer ∧ e.caller.Broadcasts
    | .wsaSend .immediate => ∀ e ∈ s.sending,
        e.connection ∈ s.mConnections.mContainer ∧ (s.mCallback = true ∨ e.caller.Broadcasts)
    | .wsaSend (.failed _) => False
    | .returns _ => ∀ caller, s.stack.head? = some (.sendComplete caller) → caller.Broadcasts
    | .dataSentToClient number _ => ∀ e ∈ s.sends.find? (fun e => e.number == number),
        e.connection ∈ s.mConnections.mContainer ∧ s.targets.head? = some e.identifier ∧
          (s.mCallback = true → s.reports number = 0)
    | _ => True

/-! ### Steps without sends -/

/-- Nothing about sends is different. -/
structure Still (s t : Server) : Prop where
  trace : ∃ es, t.trace = s.trace ++ es ∧ ∀ e ∈ es, e.numbered = false
  targets : t.targets = s.targets
  sends : t.sends = s.sends
  nextSend : t.nextSend = s.nextSend
  mCallback : t.mCallback = s.mCallback
  mHasBeenShutdown : t.mHasBeenShutdown = s.mHasBeenShutdown
  underWay : t.underWay = s.underWay
  stack : ∀ p caller, .sendFailed p caller ∈ t.stack → .sendFailed p caller ∈ s.stack

theorem underWay_none (h : s.sending = none) : s.underWay = [] := by
  unfold underWay
  rw [h]
  rfl

namespace Still

theorem of_events (es : List Event) (hes : ∀ e ∈ es, e.numbered = false)
    (htrace : t.trace = s.trace ++ es) (htargets : t.targets = s.targets)
    (hsends : t.sends = s.sends) (hnext : t.nextSend = s.nextSend)
    (hcb : t.mCallback = s.mCallback) (hshut : t.mHasBeenShutdown = s.mHasBeenShutdown)
    (hunder : t.underWay = s.underWay) (hstack : t.stack = s.stack) : Still s t :=
  ⟨⟨es, htrace, hes⟩, htargets, hsends, hnext, hcb, hshut, hunder,
    fun _ _ hmem => hstack ▸ hmem⟩

theorem of_same (htrace : t.trace = s.trace) (htargets : t.targets = s.targets)
    (hsends : t.sends = s.sends) (hnext : t.nextSend = s.nextSend)
    (hcb : t.mCallback = s.mCallback) (hshut : t.mHasBeenShutdown = s.mHasBeenShutdown)
    (hunder : t.underWay = s.underWay) (hstack : t.stack = s.stack) : Still s t :=
  of_events [] (fun _ h => by cases h) (by rw [htrace, List.append_nil]) htargets hsends hnext hcb
    hshut hunder hstack

theorem refl (s : Server) : Still s s := of_same rfl rfl rfl rfl rfl rfl rfl rfl

theorem trans (h : Still s t) (h' : Still t u) : Still s u where
  trace := by
    obtain ⟨es, he, hes⟩ := h.trace
    obtain ⟨es', he', hes'⟩ := h'.trace
    refine ⟨es ++ es', by rw [he', he, List.append_assoc], fun e hmem => ?_⟩
    rcases List.mem_append.mp hmem with hmem | hmem
    · exact hes e hmem
    · exact hes' e hmem
  targets := h'.targets.trans h.targets
  sends := h'.sends.trans h.sends
  nextSend := h'.nextSend.trans h.nextSend
  mCallback := h'.mCallback.trans h.mCallback
  mHasBeenShutdown := h'.mHasBeenShutdown.trans h.mHasBeenShutdown
  underWay := h'.underWay.trans h.underWay
  stack p caller hmem := h.stack p caller (h'.stack p caller hmem)

theorem event (s : Server) {e : Event} (he : e.numbered = false) : Still s (s.record [e]) :=
  of_events [e] (fun e' he' => by rw [List.mem_singleton.mp he']; exact he) rfl rfl rfl rfl rfl rfl
    rfl rfl

theorem leave (s : Server) (what : String) : Still s (s.leave what) :=
  of_events [.threw what] (fun e he => by rw [List.mem_singleton.mp he]; rfl) rfl rfl rfl rfl rfl
    rfl rfl rfl

/-- Undefined behaviour while no send is under way. -/
theorem crash (s : Server) (hsending : s.sending = none) : Still s s.crash :=
  of_same rfl rfl rfl rfl rfl rfl
    (by rw [underWay_none hsending, underWay_none (s := s.crash) rfl]) rfl

/-- A callback is called that is not one of a send. -/
theorem invoke (s : Server) {e : Event} {f : Frame} (he : e.numbered = false)
    (hf : ∀ p caller, f ≠ .sendFailed p caller) : Still s (s.invoke e f) where
  trace := ⟨[e], rfl, fun e' he' => by rw [List.mem_singleton.mp he']; exact he⟩
  targets := rfl
  sends := rfl
  nextSend := rfl
  mCallback := rfl
  mHasBeenShutdown := rfl
  underWay := rfl
  stack p caller hmem := (List.mem_cons.mp hmem).resolve_left fun heq => hf p caller heq.symm

theorem pop (s : Server) {f : Frame} {stack : List Frame} (hs : s.stack = f :: stack) :
    Still s { s with stack := stack } where
  trace := ⟨[], by rw [List.append_nil], fun _ h => by cases h⟩
  targets := rfl
  sends := rfl
  nextSend := rfl
  mCallback := rfl
  mHasBeenShutdown := rfl
  underWay := rfl
  stack _ _ hmem := hs ▸ List.mem_cons_of_mem f hmem

theorem drop (s : Server) (p : Ptr) : Still s (s.drop p) :=
  of_events [.deleted p, .closed (s.heap p).mSocket] (fun e he => by
    rcases List.mem_pair.mp he with rfl | rfl
    · rfl
    · rfl) rfl rfl rfl rfl rfl rfl rfl rfl

theorem removeServerConnection (h : Live s) (handle : Handle) :
    Still s (s.removeServerConnection handle) :=
  removeServerConnection_rule h.sound handle (refl s) fun p _ => drop s p

theorem removeServerConnectionById (h : Live s) (identifier : Bytes) :
    Still s (s.removeServerConnectionById identifier) :=
  removeServerConnectionById_rule h.sound identifier (refl s) fun p _ => drop s p

theorem queueReceive (s : Server) (p : Ptr) (wsaRecv : Started) :
    Still s (s.queueReceiveFromConnection p wsaRecv) := by
  cases wsaRecv with
  | pending => exact of_same rfl rfl rfl rfl rfl rfl rfl rfl
  | immediate => exact of_same rfl rfl rfl rfl rfl rfl rfl rfl
  | failed error =>
    have hreset : Still s { s with signaled := s.signaled.erase (s.heap p).hEvent } :=
      of_same rfl rfl rfl rfl rfl rfl rfl rfl
    exact hreset.trans ((event _ (e := .failed p) rfl).trans (leave _ _))

theorem requeue (s : Server) (hsending : s.sending = none) (p : Ptr) (wsaRecv : Started) :
    Still s (s.requeue p wsaRecv) := by
  unfold Server.requeue
  split_ifs
  · exact refl s
  · have htouch : Still s (s.touch p) := event s rfl
    exact use_rule (htouch.trans (crash (s.touch p) hsending)) fun _ =>
      htouch.trans (queueReceive _ p wsaRecv)

theorem receiveBranch (s : Server) (hsending : s.sending = none) (handleId : Handle)
    (result : Overlapped) (wsaRecv : Started) :
    Still s (s.receiveBranch handleId result wsaRecv) := by
  unfold Server.receiveBranch
  split
  · exact leave s _
  · rename_i p _
    have hcollect : Still s (s.collect p) :=
      of_events [.touched p _] (fun e he => by rw [List.mem_singleton.mp he]; rfl)
        rfl rfl rfl rfl rfl rfl rfl rfl
    cases result with
    | failed => exact hcollect.trans (event _ rfl)
    | bytes data =>
      simp only
      split_ifs
      · exact hcollect.trans (invoke _ rfl fun _ _ he => by cases he)
      · exact hcollect.trans (invoke _ rfl fun _ _ he => by cases he)
      · exact hcollect
      · exact hcollect.trans (requeue (s.collect p) hsending p wsaRecv)

theorem addNewConnection (s : Server) (hsending : s.sending = none) (a : Accept) :
    Still s (s.addNewConnection a) := by
  have hnone : ∀ u : Server, u.sending = s.sending → u.underWay = s.underWay := fun u hu => by
    rw [underWay_none hsending, underWay_none (hu.trans hsending)]
  have haccepted : ∀ sckt hEvent, Still s (s.accepted sckt hEvent) := fun _ _ =>
    of_same rfl rfl rfl rfl rfl rfl (hnone _ rfl) rfl
  exact addNewConnection_rule (crash s hsending)
    (fun u what hu => hu.trans (leave u what))
    (fun _ _ hu => hu.trans (of_same rfl rfl rfl rfl rfl rfl rfl rfl))
    (fun _ _ hu => hu.trans (of_same rfl rfl rfl rfl rfl rfl rfl rfl))
    (fun sckt hEvent _ => (haccepted sckt hEvent).trans (event _ rfl))
    fun sckt hEvent _ => (haccepted sckt hEvent).trans (of_same rfl rfl rfl rfl rfl rfl rfl rfl)

/-- A connection is registered while no send is under way. -/
theorem enroll (s : Server) (hsending : s.sending = none) (p : Ptr) (identifier : Bytes) :
    Still s (s.enroll p identifier) :=
  of_same rfl rfl rfl rfl rfl rfl
    (by rw [underWay_none hsending, underWay_none (s := s.enroll p identifier) hsending]) rfl

theorem enrollNew (s : Server) (hsending : s.sending = none) (mSocket : Socket) (hEvent : Handle)
    (identifier : Bytes) :
    Still s ((s.newConnection mSocket hEvent).enroll s.nextPtr identifier) := by
  have hnew : Still s (s.newConnection mSocket hEvent) :=
    of_same rfl rfl rfl rfl rfl rfl (by
      rw [underWay_none hsending, underWay_none (s := s.newConnection mSocket hEvent) hsending]) rfl
  exact hnew.trans (enroll (s.newConnection mSocket hEvent) hsending s.nextPtr identifier)

theorem unwind (s : Server) (what : String) (f : Frame) : Still s (s.unwind what f) := by
  cases f with
  | receiveComplete p => exact leave s what
  | disconnected p handleId => exact leave s what
  | completion => exact leave s what
  | sendFailed p caller => exact refl s
  | sendComplete caller => exact refl s

end Still

/-- **What a step does about sends**: nothing; it shuts the server down; a send comes to its
`WSASend`; it makes it; the report of a send returns; or the completion routine runs. -/
inductive Sends (s t : Server) : Action → Prop
  | still {a : Action} : Still s t → InTurn s a → Sends s t a
  | shutdown : t.mHasBeenShutdown = true → Sends s t (.call .shutdown)
  | begin {c : Call} {data : Bytes} {p : Ptr} {caller : Caller} : s.sending = none →
      t = s.beginSend data p caller → Sends s t (.call c)
  | made {result : Started} {e : Sending} : s.sending = some e →
      t = s.use e.connection (s.wsaSend e result) → Sends s t (.wsaSend result)
  | reported {wsaRecv : Started} {caller : Caller} {stack : List Frame} : s.sending = none →
      s.stack = .sendComplete caller :: stack → t = { s with stack := stack }.back caller →
      Sends s t (.returns wsaRecv)
  | refused {wsaRecv : Started} {p : Ptr} {caller : Caller} {stack : List Frame} :
      s.stack = .sendFailed p caller :: stack → t.mHasBeenShutdown = s.mHasBeenShutdown →
      Sends s t (.returns wsaRecv)
  | completed {number cbTransferred : ℕ} {e : Send} : s.sending = none →
      s.sends.find? (fun e => e.number == number) = some e →
      t = s.dataSentToClient e cbTransferred → Sends s t (.dataSentToClient number cbTransferred)

theorem back_mHasBeenShutdown (s : Server) (caller : Caller) :
    (s.back caller).mHasBeenShutdown = s.mHasBeenShutdown := by
  obtain ⟨targets, sending, he⟩ := aside_back s caller
  rw [he]

theorem step_sends {a : Action} (hlive : Live s) (hs : step s a = some t) : Sends s t a := by
  cases a with
  | call c =>
    obtain ⟨hrun, -, rfl⟩ := step_call hs
    cases c with
    | send data identifier =>
      simp only [call, send]
      split
      · exact .still (Still.refl s) fun _ => trivial
      · exact .begin hrun.1 rfl
    | broadcast data =>
      simp only [call, broadcast]
      cases s.mConnections.getConnections with
      | nil => exact .still (Still.refl s) fun _ => trivial
      | cons p rest => exact .begin hrun.1 rfl
    | shutdown =>
      obtain ⟨-, hshut⟩ := shutdown_rule (s := s)
        (P := fun u => Live u ∧ u.mHasBeenShutdown = true) (fun _ hu => hu.1.sound)
        (fun _ _ hu hp => ⟨hu.1.drop hp, hu.2⟩) (fun _ hu => ⟨{ hu.1 with }, hu.2⟩)
        ⟨{ hlive with }, rfl⟩
      exact .shutdown hshut
    | addConnection mSocket hEvent identifier =>
      exact .still (Still.enrollNew s hrun.1 mSocket hEvent identifier) fun _ => trivial
  | wsaSend result =>
    obtain ⟨e, he, rfl⟩ := step_wsaSend hs
    exact .made he rfl
  | returns wsaRecv =>
    obtain ⟨hsending, f, stack, hstack, rfl⟩ := step_returns hs
    have hpop := Still.pop s hstack
    have hturn : (∀ caller, f ≠ .sendComplete caller) → InTurn s (.returns wsaRecv) := by
      intro hf _ caller hhead
      rw [hstack] at hhead
      exact absurd (Option.some.inj hhead) (hf caller)
    cases f with
    | receiveComplete p =>
      exact .still (hpop.trans (Still.requeue { s with stack := stack } hsending p wsaRecv))
        (hturn fun _ he => by cases he)
    | disconnected p handleId =>
      exact .still (hpop.trans (Still.removeServerConnection (hlive.pop hstack) handleId))
        (hturn fun _ he => by cases he)
    | completion => exact .still hpop (hturn fun _ he => by cases he)
    | sendFailed p caller =>
      refine .refused hstack ?_
      have hremoved := Still.removeServerConnectionById (hlive.pop hstack) (s.heap p).mIdentifier
      exact use_rule (P := fun u => u.mHasBeenShutdown = s.mHasBeenShutdown) rfl fun _ =>
        (back_mHasBeenShutdown _ caller).trans hremoved.mHasBeenShutdown
    | sendComplete caller => exact .reported hsending hstack rfl
  | throws what =>
    obtain ⟨-, f, stack, hstack, rfl⟩ := step_throws hs
    exact .still ((Still.pop s hstack).trans (Still.unwind _ what f)) fun _ => trivial
  | wait =>
    obtain ⟨-, -, ⟨-, rfl⟩ | ⟨-, rfl⟩⟩ := step_wait hs
    · exact .still (Still.of_same rfl rfl rfl rfl rfl rfl rfl rfl) fun _ => trivial
    · exact .still (Still.of_same rfl rfl rfl rfl rfl rfl rfl rfl) fun _ => trivial
  | ioCompletion =>
    obtain ⟨-, -, ⟨-, rfl⟩ | ⟨-, rfl⟩⟩ := step_ioCompletion hs
    · exact .still (Still.of_same rfl rfl rfl rfl rfl rfl rfl rfl) fun _ => trivial
    · exact .still (Still.of_same rfl rfl rfl rfl rfl rfl rfl rfl) fun _ => trivial
  | waitFailed error =>
    obtain ⟨-, rfl⟩ := step_waitFailed hs
    exact .still (Still.leave s _) fun _ => trivial
  | signaled i result wsaRecv accept =>
    obtain ⟨handles, handleId, -, -, halone, -, -, rfl⟩ := step_signaled hs
    refine .still ?_ fun _ => trivial
    unfold dispatch
    split_ifs
    · exact Still.of_same rfl rfl rfl rfl rfl rfl rfl rfl
    · have htake : Still s { s.takeUp handleId with acceptEx := .idle } :=
        Still.of_same rfl rfl rfl rfl rfl rfl rfl rfl
      exact htake.trans (Still.addNewConnection { s.takeUp handleId with acceptEx := .idle }
        halone.1 accept)
    · have htake : Still s (s.takeUp handleId) := Still.of_same rfl rfl rfl rfl rfl rfl rfl rfl
      exact htake.trans (Still.receiveBranch (s.takeUp handleId) halone.1 handleId result wsaRecv)
  | dataSentToClient number cbTransferred =>
    obtain ⟨-, halone, e, he, rfl⟩ := step_dataSentToClient hs
    exact .completed halone.1 he rfl
  | registers p identifier =>
    obtain ⟨-, halone, -, rfl⟩ := step_registers hs
    have herase : Still s { s with informing := s.informing.erase p } :=
      Still.of_same rfl rfl rfl rfl rfl rfl rfl rfl
    exact .still (herase.trans (Still.enroll { s with informing := s.informing.erase p }
      halone.1 p identifier)) fun _ => trivial
  | receives p =>
    obtain ⟨-, rfl⟩ := step_receives hs
    exact .still (Still.of_same rfl rfl rfl rfl rfl rfl rfl rfl) fun _ => trivial
  | connects =>
    obtain ⟨sckt, -, rfl⟩ := step_connects hs
    exact .still (Still.of_same rfl rfl rfl rfl rfl rfl rfl rfl) fun _ => trivial

theorem wsaSend_mHasBeenShutdown (hlive : Live s) (e : Sending) (result : Started) :
    (s.use e.connection (s.wsaSend e result)).mHasBeenShutdown = s.mHasBeenShutdown := by
  refine use_rule (P := fun u => u.mHasBeenShutdown = s.mHasBeenShutdown) rfl fun _ => ?_
  have hlive' : Live ((s.issue e).record [.failed e.connection]) := { hlive with }
  have hremoved := Still.removeServerConnectionById hlive' (s.heap e.connection).mIdentifier
  cases result with
  | pending => exact back_mHasBeenShutdown _ _
  | immediate =>
    unfold wsaSend
    split_ifs
    · rfl
    · exact back_mHasBeenShutdown _ _
  | failed error =>
    unfold wsaSend
    simp only
    split_ifs
    · rfl
    · exact (back_mHasBeenShutdown _ _).trans hremoved.mHasBeenShutdown

theorem dataSentToClient_mHasBeenShutdown (s : Server) (e : Send) (cbTransferred : ℕ) :
    (s.dataSentToClient e cbTransferred).mHasBeenShutdown = s.mHasBeenShutdown := by
  exact dataSentToClient_rule (P := fun u => u.mHasBeenShutdown = s.mHasBeenShutdown) (fun _ => rfl)
    rfl rfl (fun _ _ _ _ _ => rfl) fun _ _ _ _ _ => rfl

/-- A shutdown is for good. -/
theorem Sends.mHasBeenShutdown {a : Action} (h : Sends s t a) (hlive : Live s)
    (hshut : s.mHasBeenShutdown = true) : t.mHasBeenShutdown = true := by
  cases h with
  | still hstill _ => exact hstill.mHasBeenShutdown.trans hshut
  | shutdown ht => exact ht
  | begin _ ht =>
    rw [ht]
    exact hshut
  | made _ ht =>
    rw [ht, wsaSend_mHasBeenShutdown hlive]
    exact hshut
  | reported _ _ ht =>
    rw [ht, back_mHasBeenShutdown]
    exact hshut
  | refused _ ht => exact ht.trans hshut
  | completed _ _ ht =>
    rw [ht, dataSentToClient_mHasBeenShutdown]
    exact hshut

/-! ### The numbers of sends -/

/-- Sends are numbered in the order in which they are made. -/
structure Numbered (s : Server) : Prop where
  distinct : (s.sends.map Send.number).Nodup
  sends : ∀ e ∈ s.sends, e.number < s.nextSend
  started : ∀ number p identifier, .sending number p identifier ∈ s.trace →
    number < s.nextSend ∧ ∀ e ∈ s.sends, e.number = number → e.identifier = identifier
  reported : ∀ number, s.nextSend ≤ number → s.reports number = 0
  unfailed : ∀ p caller, .sendFailed p caller ∉ s.stack

theorem reports_append (es : List Event) (h : t.trace = s.trace ++ es) (number : ℕ) :
    t.reports number = s.reports number + es.countP (Event.reports number) := by
  unfold reports
  rw [h, List.countP_append]

theorem mem_numbered {es : List Event} (hes : ∀ e ∈ es, e.numbered = false) {e : Event}
    (he : e.numbered = true) (hmem : e ∈ s.trace ++ es) : e ∈ s.trace := by
  rcases List.mem_append.mp hmem with hmem | hmem
  · exact hmem
  · rw [hes e hmem] at he
    cases he

theorem Still.reports (h : Still s t) (number : ℕ) : t.reports number = s.reports number := by
  obtain ⟨es, htrace, hes⟩ := h.trace
  have hnone : es.countP (Event.reports number) = 0 := List.countP_eq_zero.mpr fun e he => by
    rw [Event.reports_of_not_numbered (hes e he)]
    decide
  rw [reports_append es htrace, hnone, Nat.add_zero]

theorem Still.attributed (h : Still s t) (ha : Attributed s) : Attributed t := by
  obtain ⟨es, htrace, hes⟩ := h.trace
  constructor
  · rw [h.targets, h.sends, h.underWay]
    exact ha.targets
  · intro number identifier count p identifier' hc hst
    rw [htrace] at hc hst
    exact ha.completions number identifier count p identifier' (mem_numbered hes rfl hc)
      (mem_numbered hes rfl hst)
  · intro hcb number hn
    rw [h.mCallback] at hcb
    rw [h.nextSend] at hn
    rw [h.reports, h.sends]
    exact ha.reported hcb number hn

theorem Still.numbered (h : Still s t) (hn : Numbered s) : Numbered t := by
  obtain ⟨es, htrace, hes⟩ := h.trace
  constructor
  · rw [h.sends]
    exact hn.distinct
  · rw [h.sends, h.nextSend]
    exact hn.sends
  · intro number p identifier hmem
    rw [htrace] at hmem
    rw [h.sends, h.nextSend]
    exact hn.started number p identifier (mem_numbered hes rfl hmem)
  · intro number hle
    rw [h.nextSend] at hle
    rw [h.reports]
    exact hn.reported number hle
  · exact fun p caller hmem => hn.unfailed p caller (h.stack p caller hmem)

/-- A send that has been reported has been made. -/
theorem Numbered.lt_of_complete (h : Numbered s) {number : ℕ} {identifier : Bytes} {count : ℕ}
    (hmem : .sendComplete number identifier count ∈ s.trace) : number < s.nextSend := by
  by_contra hle
  have hzero := h.reported number (Nat.le_of_not_lt hle)
  unfold Server.reports at hzero
  exact List.countP_eq_zero.mp hzero _ hmem (by simp [Event.reports])

/-! ### Sends that begin -/

theorem attributed_beginSend (h : Attributed s) (hsending : s.sending = none) (data : Bytes)
    (p : Ptr) (caller : Caller) : Attributed (s.beginSend data p caller) :=
  { h with
    targets := by
      have hperm := h.targets
      rw [underWay_none hsending, List.append_nil] at hperm
      exact hperm.append_right [(s.heap p).mIdentifier] }

theorem attributed_sendEach (h : Attributed s) (hsending : s.sending = none) (data : Bytes) :
    ∀ ps : List Ptr, Attributed (s.sendEach data ps)
  | [] => h
  | p :: ps => attributed_beginSend h hsending data p (.broadcast data ps)

theorem numbered_back (h : Numbered s) (caller : Caller) : Numbered (s.back caller) := by
  obtain ⟨targets, sending, he⟩ := aside_back s caller
  rw [he]
  exact { h with }

/-! ### Targets that are too many -/

/-- There are more targets than sends. -/
def Surplus (s : Server) : Prop := s.sends.length + s.underWay.length < s.targets.length

theorem Surplus.not_attributed (h : Surplus s) : ¬ Attributed s := fun ha => by
  have hlen := ha.targets.length_eq
  rw [List.length_append, List.length_map] at hlen
  unfold Surplus at h
  omega

theorem Surplus.still (h : Surplus s) (hst : Still s t) : Surplus t := by
  unfold Surplus at *
  rw [hst.sends, hst.underWay, hst.targets]
  exact h

theorem Surplus.back (h : Surplus s) (caller : Caller) : Surplus (s.back caller) := by
  unfold Surplus at *
  cases caller with
  | send identifier =>
    show s.sends.length + s.underWay.length < (s.targets ++ [identifier]).length
    rw [List.length_append]
    omega
  | broadcast data rest =>
    cases rest with
    | nil => exact h
    | cons p rest =>
      show s.sends.length + 1 < (s.targets ++ [_]).length
      rw [List.length_append, List.length_singleton]
      omega

/-- **`Server::send` pushes a second target.** -/
theorem attributed_back_iff (h : Attributed s) (hsending : s.sending = none) (caller : Caller) :
    Attributed (s.back caller) ↔ caller.Broadcasts := by
  cases caller with
  | send identifier =>
    refine iff_of_false (Surplus.not_attributed ?_) id
    have hlen := h.targets.length_eq
    rw [List.length_append, List.length_map, underWay_none hsending] at hlen
    unfold Surplus
    show s.sends.length + s.underWay.length < (s.targets ++ [identifier]).length
    rw [underWay_none hsending, List.length_append, List.length_singleton]
    simp only [List.length_nil] at hlen ⊢
    omega
  | broadcast data rest => exact iff_of_true (attributed_sendEach h hsending data rest) trivial

/-! ### Sends that are made -/

/-- The event of a `WSASend` reports nothing. -/
theorem reports_issue (s : Server) (e : Sending) (number : ℕ) :
    (s.issue e).reports number = s.reports number := by
  unfold reports issue
  simp [Event.reports]

theorem attributed_start (h : Attributed s) (hn : Numbered s) {e : Sending}
    (he : s.sending = some e) : Attributed (s.start e) where
  targets := by
    have hperm := h.targets
    unfold underWay at hperm
    rw [he] at hperm
    show s.targets.Perm ((s.sends ++ [_]).map Send.identifier ++ [])
    rw [List.map_append, List.append_nil]
    exact hperm
  completions := by
    intro number identifier count p identifier' hc hst
    have hc' : .sendComplete number identifier count ∈ s.trace := by
      rcases List.mem_append.mp hc with hc | hc
      · exact hc
      · cases List.mem_singleton.mp hc
    rcases List.mem_append.mp hst with hst | hst
    · exact h.completions number identifier count p identifier' hc' hst
    · have hlt := hn.lt_of_complete hc'
      rw [(Event.sending.inj (List.mem_singleton.mp hst)).1] at hlt
      exact absurd hlt (lt_irrefl _)
  reported := by
    intro hcb number hlt
    have hsame : (s.start e).reports number = s.reports number := reports_issue s e number
    have hmap : (s.start e).sends.map Send.number = s.sends.map Send.number ++ [s.nextSend] := by
      show (s.sends ++ [_]).map Send.number = _
      rw [List.map_append]
      rfl
    rw [hsame, hmap]
    rcases Nat.lt_succ_iff_lt_or_eq.mp hlt with hlt | rfl
    · obtain ⟨hle, hone⟩ := h.reported hcb number hlt
      exact ⟨hle, fun hmem => hone fun hin => hmem (List.mem_append_left _ hin)⟩
    · rw [hn.reported s.nextSend le_rfl]
      exact ⟨Nat.zero_le _, fun hmem => absurd (List.mem_append_right _ List.mem_cons_self) hmem⟩

theorem numbered_start (hn : Numbered s) (e : Sending) : Numbered (s.start e) where
  distinct := by
    show ((s.sends ++ [_]).map Send.number).Nodup
    rw [List.map_append]
    refine List.Nodup.append hn.distinct (List.nodup_singleton _) ?_
    intro number hmem hnew
    rw [List.map_cons, List.map_nil, List.mem_singleton] at hnew
    obtain ⟨e', he', rfl⟩ := List.mem_map.mp hmem
    exact absurd hnew (Nat.ne_of_lt (hn.sends e' he'))
  sends := by
    intro e' he'
    rcases List.mem_append.mp he' with he' | he'
    · exact Nat.lt_succ_of_lt (hn.sends e' he')
    · rw [List.mem_singleton.mp he']
      exact Nat.lt_succ_self _
  started := by
    intro number p identifier hmem
    rcases List.mem_append.mp hmem with hmem | hmem
    · obtain ⟨hlt, hid⟩ := hn.started number p identifier hmem
      refine ⟨Nat.lt_succ_of_lt hlt, fun e' he' hnum => ?_⟩
      rcases List.mem_append.mp he' with he' | he'
      · exact hid e' he' hnum
      · rw [List.mem_singleton.mp he'] at hnum
        exact absurd hnum (Nat.ne_of_gt hlt)
    · obtain ⟨rfl, -, rfl⟩ := Event.sending.inj (List.mem_singleton.mp hmem)
      refine ⟨Nat.lt_succ_self _, fun e' he' hnum => ?_⟩
      rcases List.mem_append.mp he' with he' | he'
      · exact absurd hnum (Nat.ne_of_lt (hn.sends e' he'))
      · rw [List.mem_singleton.mp he']
  reported := by
    intro number hle
    have hsame : (s.start e).reports number = s.reports number := reports_issue s e number
    rw [hsame]
    exact hn.reported number (Nat.le_of_succ_le hle)
  unfailed := hn.unfailed

/-! ### Reports -/

/-- A send is reported as complete that has not been reported. -/
theorem attributed_complete {number count : ℕ} {identifier : Bytes} {f : Frame}
    (htargets : s.targets.Perm (s.sends.map Send.identifier ++ s.underWay))
    (hcompletions : ∀ n identifier count p identifier', .sendComplete n identifier count ∈ s.trace →
      .sending n p identifier' ∈ s.trace → identifier = identifier')
    (hreported : s.mCallback = true → ∀ n < s.nextSend, n ≠ number →
      s.reports n ≤ 1 ∧ (n ∉ s.sends.map Send.number → s.reports n = 1))
    (hzero : s.reports number = 0)
    (hid : ∀ p identifier', .sending number p identifier' ∈ s.trace → identifier = identifier') :
    Attributed (s.invoke (.sendComplete number identifier count) f) where
  targets := htargets
  completions := by
    intro n id' count' p identifier' hc hst
    have hst' : .sending n p identifier' ∈ s.trace := by
      rcases List.mem_append.mp hst with hst | hst
      · exact hst
      · cases List.mem_singleton.mp hst
    rcases List.mem_append.mp hc with hc | hc
    · exact hcompletions n id' count' p identifier' hc hst'
    · obtain ⟨rfl, rfl, -⟩ := Event.sendComplete.inj (List.mem_singleton.mp hc)
      exact hid p identifier' hst'
  reported := by
    intro hcb n hlt
    have hsum : (s.invoke (.sendComplete number identifier count) f).reports n =
        s.reports n + if number = n then 1 else 0 := by
      rw [reports_append (s := s) [.sendComplete number identifier count] rfl]
      simp [Event.reports, List.countP_cons]
    rw [hsum]
    by_cases hn : number = n
    · subst hn
      rw [hzero, if_pos rfl]
      exact ⟨le_rfl, fun _ => rfl⟩
    · rw [if_neg hn, Nat.add_zero]
      exact hreported hcb n hlt (Ne.symm hn)

theorem numbered_complete (hn : Numbered s) {number count : ℕ} {identifier : Bytes} {f : Frame}
    (hlt : number < s.nextSend) (hf : ∀ p caller, f ≠ .sendFailed p caller) :
    Numbered (s.invoke (.sendComplete number identifier count) f) where
  distinct := hn.distinct
  sends := hn.sends
  started := by
    intro n p identifier' hst
    rcases List.mem_append.mp hst with hst | hst
    · exact hn.started n p identifier' hst
    · cases List.mem_singleton.mp hst
  reported := by
    intro n hle
    have hle' : s.nextSend ≤ n := hle
    rw [reports_append (s := s) [.sendComplete number identifier count] rfl,
      hn.reported n hle']
    have hne : number ≠ n := by omega
    simp [Event.reports, hne]
  unfailed := by
    intro p caller hmem
    rcases List.mem_cons.mp hmem with hmem | hmem
    · exact hf p caller hmem.symm
    · exact hn.unfailed p caller hmem

/-! ### Steps -/

/-- A send that is over without having become outstanding leaves its target. -/
theorem surplus_over (ha : Attributed s) {e : Sending} (he : s.sending = some e)
    (hsends : u.sends = s.sends) (htargets : u.targets = s.targets) (hsending : u.sending = none) :
    Surplus u := by
  have hlen := ha.targets.length_eq
  unfold underWay at hlen
  rw [he, List.length_append, List.length_map] at hlen
  unfold Surplus
  rw [hsends, htargets, underWay_none hsending, hlen]
  exact Nat.lt_succ_self _

/-- **The `WSASend`** of a broadcast must not fail or be made on a deleted connection; that of
`Server::send` must complete at once and be reported. -/
theorem attributed_wsaSend_iff (ha : Attributed s) (hn : Numbered s) (hlive : Live s) {e : Sending}
    (he : s.sending = some e) (hshut : s.mHasBeenShutdown = false) (result : Started) :
    (Attributed (s.use e.connection (s.wsaSend e result)) ↔ InTurn s (.wsaSend result)) ∧
      (InTurn s (.wsaSend result) → Numbered (s.use e.connection (s.wsaSend e result))) := by
  by_cases hp : e.connection ∈ s.mConnections.mContainer
  swap
  · -- the use of a deleted connection leaves its target
    have hturn : ¬ InTurn s (.wsaSend result) := by
      intro h
      cases result with
      | pending => exact hp (h hshut e he).1
      | immediate => exact hp (h hshut e he).1
      | failed error => exact h hshut
    rw [use_deleted hp]
    have hsurplus : Surplus s.crash := surplus_over ha he rfl rfl rfl
    exact ⟨iff_of_false hsurplus.not_attributed hturn, fun h => absurd h hturn⟩
  rw [use_mem hp]
  have hstart := attributed_start ha hn he
  have hnumbered := numbered_start hn e
  have hcaller : ∀ q : Sending → Prop, (∀ e' ∈ s.sending, q e') ↔ q e := by
    intro q
    rw [he]
    exact ⟨fun h => h e rfl, fun h e' he' => Option.some.inj he' ▸ h⟩
  have hback : Attributed ((s.start e).back e.caller) ↔ e.caller.Broadcasts :=
    attributed_back_iff hstart rfl e.caller
  cases result with
  | pending =>
    refine ⟨hback.trans ⟨fun h _ => (hcaller _).mpr ⟨hp, h⟩, fun h => ?_⟩,
      fun _ => numbered_back hnumbered _⟩
    exact (h hshut e he).2
  | immediate =>
    unfold wsaSend
    split_ifs with hcb
    · have hzero : (s.start e).reports s.nextSend = 0 :=
        (reports_issue s e s.nextSend).trans (hn.reported s.nextSend le_rfl)
      have hid : ∀ p identifier', .sending s.nextSend p identifier' ∈ (s.start e).trace →
          (s.heap e.connection).mIdentifier = identifier' := by
        intro p identifier' hst
        rcases List.mem_append.mp hst with hst | hst
        · exact absurd (hn.started _ _ _ hst).1 (lt_irrefl _)
        · exact ((Event.sending.inj (List.mem_singleton.mp hst)).2.2).symm
      refine ⟨iff_of_true ?_ fun _ => (hcaller _).mpr ⟨hp, Or.inl hcb⟩, fun _ => ?_⟩
      · exact attributed_complete hstart.targets hstart.completions
          (fun hcb n hlt _ => hstart.reported hcb n hlt) hzero hid
      · exact numbered_complete hnumbered (Nat.lt_succ_self _) fun _ _ he => by cases he
    · refine ⟨hback.trans ⟨fun h _ => (hcaller _).mpr ⟨hp, Or.inr h⟩, fun h => ?_⟩,
        fun _ => numbered_back hnumbered _⟩
      exact (h hshut e he).2.resolve_left hcb
  | failed error =>
    have hturn : ¬ InTurn s (.wsaSend (.failed error)) := fun h => h hshut
    refine ⟨iff_of_false ?_ hturn, fun h => absurd h hturn⟩
    have hsurplus : Surplus ((s.issue e).record [.failed e.connection]) :=
      surplus_over ha he rfl rfl rfl
    have hlive' : Live ((s.issue e).record [.failed e.connection]) := { hlive with }
    unfold wsaSend
    simp only
    split_ifs
    · exact Surplus.not_attributed hsurplus
    · exact ((hsurplus.still (Still.removeServerConnectionById hlive' _)).back _).not_attributed

/-- **The completion routine** must run for the send at the front of the targets, once. -/
theorem attributed_dataSentToClient_iff (ha : Attributed s) (hn : Numbered s)
    (hsending : s.sending = none) (hshut : s.mHasBeenShutdown = false) {number : ℕ} {e : Send}
    (he : s.sends.find? (fun e => e.number == number) = some e) (cbTransferred : ℕ) :
    (Attributed (s.dataSentToClient e cbTransferred) ↔
      InTurn s (.dataSentToClient number cbTransferred)) ∧
      (InTurn s (.dataSentToClient number cbTransferred) →
        Numbered (s.dataSentToClient e cbTransferred)) := by
  have hmem : e ∈ s.sends := List.mem_of_find?_eq_some he
  obtain rfl : e.number = number := by simpa using List.find?_some he
  have hlt := hn.sends e hmem
  have hperm := ha.targets
  rw [underWay_none hsending, List.append_nil] at hperm
  by_cases hp : e.connection ∈ s.mConnections.mContainer
  swap
  · -- the routine for a deleted connection leaves its target
    have hturn : ¬ InTurn s (.dataSentToClient e.number cbTransferred) := fun h =>
      hp (h hshut e he).1
    have hlen := hperm.length_eq
    have hpos := List.length_pos_of_mem hmem
    have hsurplus : Surplus { s with sends := s.sends.erase e }.crash := by
      show (s.sends.erase e).length + 0 < s.targets.length
      rw [List.length_erase_of_mem hmem, hlen, List.length_map]
      omega
    unfold dataSentToClient
    rw [use_deleted (s := { s with sends := s.sends.erase e }) hp]
    exact ⟨iff_of_false hsurplus.not_attributed hturn, fun h => absurd h hturn⟩
  obtain ⟨target, rest, htargets⟩ : ∃ target rest, s.targets = target :: rest := by
    refine List.exists_cons_of_ne_nil fun hnil => ?_
    rw [hnil] at hperm
    exact List.ne_nil_of_mem (List.mem_map_of_mem hmem) hperm.symm.eq_nil
  rw [htargets] at hperm
  have hpop := perm_pop_iff hmem hperm
  have hturn : InTurn s (.dataSentToClient e.number cbTransferred) ↔
      target = e.identifier ∧ (s.mCallback = true → s.reports e.number = 0) := by
    constructor
    · intro h
      obtain ⟨-, hhead, hzero⟩ := h hshut e he
      rw [htargets] at hhead
      exact ⟨Option.some.inj hhead, hzero⟩
    · rintro ⟨htarget, hzero⟩ - e' he'
      rw [he] at he'
      obtain rfl := Option.some.inj he'
      rw [htargets]
      exact ⟨hp, congrArg some htarget, hzero⟩
  -- the numbers that are left
  have hleft : ∀ n, n ≠ e.number → n ∈ s.sends.map Send.number →
      n ∈ (s.sends.erase e).map Send.number := by
    intro n hne hin
    obtain ⟨e', he', rfl⟩ := List.mem_map.mp hin
    exact List.mem_map_of_mem ((List.mem_erase_of_ne (ne_of_apply_ne _ hne)).mpr he')
  have hunder : (s.popTarget e rest).underWay = [] := underWay_none hsending
  have hnumbered : Numbered (s.popTarget e rest) :=
    { hn with
      distinct := hn.distinct.sublist (List.erase_sublist.map _)
      sends := fun e' he' => hn.sends e' (List.mem_of_mem_erase he')
      started := fun n p identifier hst => by
        obtain ⟨hlt', hid⟩ := hn.started n p identifier hst
        exact ⟨hlt', fun e' he' => hid e' (List.mem_of_mem_erase he')⟩ }
  have hresult : s.dataSentToClient e cbTransferred =
      if s.mCallback then
        (s.popTarget e rest).invoke (.sendComplete e.number target cbTransferred) .completion
      else s.popTarget e rest := by
    unfold dataSentToClient
    rw [use_mem (s := { s with sends := s.sends.erase e }) hp]
    simp only [complete, hshut, htargets]
    rfl
  rw [hresult, hturn]
  split_ifs with hcb
  · refine ⟨⟨fun ht => ⟨?_, fun _ => ?_⟩, fun ⟨htarget, hzero⟩ => ?_⟩,
      fun _ => numbered_complete hnumbered hlt fun _ _ he => by cases he⟩
    · have hrest : rest.Perm ((s.sends.erase e).map Send.identifier ++
        (s.popTarget e rest).underWay) := ht.targets
      rw [hunder, List.append_nil] at hrest
      exact hpop.mp hrest
    · have hle := (ht.reported hcb e.number hlt).1
      rw [reports_append (s := s.popTarget e rest)
        [.sendComplete e.number target cbTransferred] rfl] at hle
      have hsame : (s.popTarget e rest).reports e.number = s.reports e.number := rfl
      rw [hsame] at hle
      simp [Event.reports] at hle
      exact hle
    · refine attributed_complete ?_ ha.completions (fun _ n hn' hne => ?_) (hzero hcb)
        fun p identifier' hst => ?_
      · rw [hunder, List.append_nil]
        exact hpop.mpr htarget
      · obtain ⟨hle, hone⟩ := ha.reported hcb n hn'
        exact ⟨hle, fun hnot => hone fun hin => hnot (hleft n hne hin)⟩
      · rw [htarget]
        exact (hn.started e.number p identifier' hst).2 e hmem rfl
  · refine ⟨⟨fun ht => ⟨?_, fun h => absurd h hcb⟩, fun ⟨htarget, _⟩ => ?_⟩, fun _ => hnumbered⟩
    · have hrest := ht.targets
      rw [hunder, List.append_nil] at hrest
      exact hpop.mp hrest
    · refine ⟨?_, ha.completions, fun h => absurd h hcb⟩
      rw [hunder, List.append_nil]
      exact hpop.mpr htarget

/-- **A step keeps the attribution exactly when it is in turn.** -/
theorem attributes_step {a : Action} (hlive : Live s)
    (hn : s.mHasBeenShutdown = false → Numbered s)
    (ha : s.mHasBeenShutdown = false → Attributed s) (hs : step s a = some t) :
    ((t.mHasBeenShutdown = false → Attributed t) ↔ InTurn s a) ∧
      (InTurn s a → t.mHasBeenShutdown = false → Numbered t) := by
  have hsends := step_sends hlive hs
  by_cases hshut : s.mHasBeenShutdown = true
  · have hnot : ¬ t.mHasBeenShutdown = false := by
      rw [hsends.mHasBeenShutdown hlive hshut]
      decide
    refine ⟨iff_of_true (fun h => absurd h hnot) fun h => ?_, fun _ h => absurd h hnot⟩
    rw [hshut] at h
    cases h
  have hopen : s.mHasBeenShutdown = false := by simpa using hshut
  have hn := hn hopen
  have ha := ha hopen
  -- in the state after the step, the server is not shut down either
  have hkeep : ∀ {r : Prop}, t.mHasBeenShutdown = s.mHasBeenShutdown →
      (Attributed t ↔ r) ∧ (r → Numbered t) →
      ((t.mHasBeenShutdown = false → Attributed t) ↔ r) ∧
        (r → t.mHasBeenShutdown = false → Numbered t) := by
    rintro r hsame ⟨hiff, hnum⟩
    exact ⟨⟨fun h => hiff.mp (h (hsame.trans hopen)), fun hr _ => hiff.mpr hr⟩,
      fun hr _ => hnum hr⟩
  cases hsends with
  | still hstill hturn =>
    exact ⟨iff_of_true (fun _ => hstill.attributed ha) hturn, fun _ _ => hstill.numbered hn⟩
  | shutdown ht =>
    refine ⟨iff_of_true (fun h => ?_) fun _ => trivial, fun _ h => ?_⟩
    · rw [ht] at h
      cases h
    · rw [ht] at h
      cases h
  | @begin c data p caller hsending ht =>
    subst ht
    exact ⟨iff_of_true (fun _ => attributed_beginSend ha hsending data p caller) fun _ => trivial,
      fun _ _ => { hn with }⟩
  | @made result e he ht =>
    subst ht
    exact hkeep (wsaSend_mHasBeenShutdown hlive e result)
      (attributed_wsaSend_iff ha hn hlive he hopen result)
  | @reported wsaRecv caller stack hsending hstack ht =>
    subst ht
    have hpop := Still.pop s hstack
    refine hkeep (back_mHasBeenShutdown _ caller) ⟨(attributed_back_iff (hpop.attributed ha)
      hsending caller).trans ?_, fun _ => numbered_back (hpop.numbered hn) caller⟩
    constructor
    · intro hb _ caller' hhead
      rw [hstack] at hhead
      obtain rfl := Frame.sendComplete.inj (Option.some.inj hhead)
      exact hb
    · intro h
      exact h hopen caller (by rw [hstack]; rfl)
  | refused hstack _ => exact absurd (hstack ▸ List.mem_cons_self) (hn.unfailed _ _)
  | @completed number cbTransferred e hsending he ht =>
    subst ht
    exact hkeep (dataSentToClient_mHasBeenShutdown s e cbTransferred)
      (attributed_dataSentToClient_iff ha hn hsending hopen he cbTransferred)

theorem attributed_start_run (setup : Setup) : Attributed (waitForEvents setup) where
  targets := List.Perm.refl _
  completions _ _ _ _ _ h := by cases h
  reported _ _ hlt := absurd hlt (Nat.not_lt_zero _)

theorem numbered_start_run (setup : Setup) : Numbered (waitForEvents setup) where
  distinct := List.nodup_nil
  sends _ h := by cases h
  started _ _ _ h := by cases h
  reported _ _ := rfl
  unfailed _ _ h := by cases h

/-- **Completions are attributed to the right client**, in every state of a run in which the server
is not shut down, if and only if every step is in turn. -/
theorem attributes_iff (setup : Setup) (as : List Action) :
    Always step (fun s => s.mHasBeenShutdown = false → Attributed s) (waitForEvents setup) as ↔
      Along step InTurn (waitForEvents setup) as :=
  always_iff_along (I := fun s => Live s ∧ (s.mHasBeenShutdown = false → Numbered s))
    (fun _ _ _ h ha hs ht => ⟨h.1.step hs,
      (attributes_step h.1 h.2 ha hs).2 ((attributes_step h.1 h.2 ha hs).1.mp ht)⟩)
    (fun _ _ _ h ha hs => (attributes_step h.1 h.2 ha hs).1)
    as ⟨Live.start setup, fun _ => numbered_start_run setup⟩ fun _ => attributed_start_run setup

/-- A server with a callback. -/
def sender : Setup := { mCallback := true, hEvent := 0, incoming := 3, events := ∅ }

/-- **A target that is left**: of one send to one client, after it has completed. -/
theorem target_left : ∃ t, run step (waitForEvents sender)
    [.call (.addConnection 9 1 [97]), .wait, .call (.send [104] [97]), .wsaSend .pending,
      .dataSentToClient 0 1, .returns .pending] = some t ∧
      ¬ (t.mHasBeenShutdown = false → Attributed t) := by
  obtain ⟨t, ht, hopen, hsends, hsending, htargets⟩ := exists_run step (waitForEvents sender)
    [.call (.addConnection 9 1 [97]), .wait, .call (.send [104] [97]), .wsaSend .pending,
      .dataSentToClient 0 1, .returns .pending]
    (fun t => t.mHasBeenShutdown = false ∧ t.sends = [] ∧ t.sending = none ∧ t.targets = [[97]])
    (by decide)
  refine ⟨t, ht, fun h => ?_⟩
  have hlen := (h hopen).targets.length_eq
  rw [hsends, underWay_none hsending, htargets] at hlen
  exact absurd hlen (by decide)

end Server

end C11Http.Windows
