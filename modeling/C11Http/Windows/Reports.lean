import C11Http.Windows.Stray

/-! # What the windows server reports of a send

A `WSASend` that is refused is reported by the private `send` as failed, and one that completes at
once as complete; the completion routine, which runs for every send that has been accepted, reports
it as complete, the ones that have been reported before included. Only a shutdown keeps it from
that, or its connection being deleted before, which makes it undefined.

`notices_each` says of every state of every run that is not undefined exactly what has been reported
of each send, by what its `WSASend` has returned and by whether its routine has run: no report is
lost, none is made twice but for the sends that complete at once, and none of a failed send follows.
-/

namespace C11Http.Windows

open C11Http.Lib.Run

/-- What the callback is told of a send. -/
inductive Notice
  | complete
  | failed
  deriving DecidableEq

/-- What an event is for the send with this number. -/
def notice (number : ℕ) : Event → Option Notice
  | .sendComplete n _ _ => if n = number then some .complete else none
  | .sendFailed n _ _ => if n = number then some .failed else none
  | _ => none

/-- What the private `send` reports itself. -/
def Started.notices : Started → List Notice
  | .pending => []
  | .immediate => [.complete]
  | .failed _ => [.failed]

/-- How often the completion routine runs. -/
def Started.routines : Started → ℕ
  | .failed _ => 0
  | _ => 1

namespace Server

variable {s t u : Server} {answers : List Started}

def notices (s : Server) (number : ℕ) : List Notice := s.trace.filterMap (notice number)

/-- The numbers of the sends whose routine has not run. -/
def sendNumbers (s : Server) : List ℕ := s.sends.map Send.number

/-- What the `WSASend` of a step returns. -/
def Action.answer : Action → Option Started
  | .wsaSend result => some result
  | _ => none

/-- The loop runs, or can. -/
def Serves (s : Server) : Prop := s.mHasBeenShutdown = false ∧ s.pc ≠ .left

/-- A send that its `WSASend` has answered with `result`: what is reported at once, and then once
for each run of the routine. Of a server that serves no run is missing. -/
def Noticed (result : Started) (s : Server) (number : ℕ) : Prop :=
  ∃ runs, s.notices number = result.notices ++ List.replicate runs .complete ∧
    runs + s.sendNumbers.count number ≤ result.routines ∧
    (s.Serves → runs + s.sendNumbers.count number = result.routines)

/-- **The reports of all sends**, where `answers` are the results of their `WSASend`s. -/
structure Reported (answers : List Started) (s : Server) : Prop where
  mCallback : s.mCallback = true
  issued : answers.length = s.nextSend
  each : ∀ number result, answers[number]? = some result → Noticed result s number
  later : ∀ number, s.nextSend ≤ number → s.notices number = [] ∧ number ∉ s.sendNumbers

/-- Nothing is sent and nothing of a send reported. -/
structure Mute (s t : Server) : Prop where
  notices : ∀ number, t.notices number = s.notices number
  sends : t.sends = s.sends
  nextSend : t.nextSend = s.nextSend
  mCallback : t.mCallback = s.mCallback
  serves : t.Serves → s.Serves

namespace Mute

theorem of_events (es : List Event) (htrace : t.trace = s.trace ++ es)
    (hes : ∀ number, es.filterMap (notice number) = []) (hsends : t.sends = s.sends)
    (hnext : t.nextSend = s.nextSend) (hcb : t.mCallback = s.mCallback)
    (hserves : t.Serves → s.Serves) : Mute s t where
  notices number := by
    unfold Server.notices
    rw [htrace, List.filterMap_append, hes, List.append_nil]
  sends := hsends
  nextSend := hnext
  mCallback := hcb
  serves := hserves

theorem refl (s : Server) : Mute s s :=
  of_events [] (List.append_nil _).symm (fun _ => rfl) rfl rfl rfl id

theorem trans (h : Mute s t) (h' : Mute t u) : Mute s u where
  notices number := (h'.notices number).trans (h.notices number)
  sends := h'.sends.trans h.sends
  nextSend := h'.nextSend.trans h.nextSend
  mCallback := h'.mCallback.trans h.mCallback
  serves hu := h.serves (h'.serves hu)

theorem aside (h : Aside s t) : Mute s t := by
  obtain ⟨targets, sending, rfl⟩ := h
  exact { refl s with }

theorem leave (s : Server) (what : String) : Mute s (s.leave what) :=
  of_events [.threw what] rfl (fun _ => rfl) rfl rfl rfl fun hs => absurd rfl hs.2

theorem crash (s : Server) : Mute s s.crash :=
  of_events [] (List.append_nil _).symm (fun _ => rfl) rfl rfl rfl fun hs => absurd rfl hs.2

theorem failed (s : Server) (p : Ptr) : Mute s (s.record [.failed p]) :=
  of_events [.failed p] rfl (fun _ => rfl) rfl rfl rfl id

theorem touch (s : Server) (p : Ptr) : Mute s (s.touch p) :=
  of_events [_] rfl (fun _ => rfl) rfl rfl rfl id

theorem invoke (s : Server) {e : Event} (f : Frame) (he : ∀ number, notice number e = none) :
    Mute s (s.invoke e f) :=
  of_events [e] rfl (fun number => by simp [he]) rfl rfl rfl id

theorem drop (s : Server) (p : Ptr) : Mute s (s.drop p) :=
  of_events [.deleted p, .closed (s.heap p).mSocket] rfl (fun _ => rfl) rfl rfl rfl id

theorem removeServerConnection (h : Live s) (handle : Handle) :
    Mute s (s.removeServerConnection handle) :=
  removeServerConnection_rule h.sound handle (refl s) fun p _ => drop s p

theorem removeServerConnectionById (h : Live s) (identifier : Bytes) :
    Mute s (s.removeServerConnectionById identifier) :=
  removeServerConnectionById_rule h.sound identifier (refl s) fun p _ => drop s p

theorem shutdown (h : Live s) : Mute s s.shutdown :=
  (shutdown_rule (P := fun u => Live u ∧ Mute s u) (fun _ hu => hu.1.sound)
    (fun u p hu hp => ⟨hu.1.drop hp, hu.2.trans (drop u p)⟩)
    (fun u hu => ⟨{ hu.1 with }, hu.2.trans { refl u with }⟩)
    ⟨{ h with }, of_events [] (List.append_nil _).symm (fun _ => rfl) rfl rfl rfl
      fun hs => Bool.noConfusion hs.1⟩).2

theorem requeue (s : Server) (p : Ptr) (wsaRecv : Started) : Mute s (s.requeue p wsaRecv) := by
  unfold Server.requeue
  split_ifs
  · exact refl s
  · have htouch := touch s p
    refine use_rule (htouch.trans (crash _)) fun _ => ?_
    cases wsaRecv with
    | pending => exact { htouch with }
    | immediate => exact { htouch with }
    | failed error =>
      have hreset : Mute s { s.touch p with
        signaled := (s.touch p).signaled.erase (s.heap p).hEvent } := { htouch with }
      exact hreset.trans ((failed _ p).trans (leave _ _))

theorem resume (h : Live s) (wsaRecv : Started) (f : Frame) : Mute s (s.resume wsaRecv f) := by
  cases f with
  | receiveComplete p => exact requeue s p wsaRecv
  | disconnected p handleId => exact removeServerConnection h handleId
  | completion => exact refl s
  | sendFailed p caller =>
    exact use_rule (crash s) fun _ =>
      (removeServerConnectionById h _).trans (aside (aside_back _ _))
  | sendComplete caller => exact aside (aside_back _ _)

theorem unwind (s : Server) (what : String) (f : Frame) : Mute s (s.unwind what f) := by
  cases f with
  | receiveComplete p => exact leave s what
  | disconnected p handleId => exact leave s what
  | completion => exact leave s what
  | sendFailed p caller => exact refl s
  | sendComplete caller => exact refl s

/-- The loop goes on with the event it has taken up. -/
theorem receiveBranch (s : Server) (handleId : Handle) (result : Overlapped) (wsaRecv : Started) :
    Mute s (s.receiveBranch handleId result wsaRecv) := by
  unfold Server.receiveBranch
  split
  · exact leave s _
  · rename_i p _
    have hcollect : Mute s (s.collect p) := { touch s p with }
    split
    · exact hcollect.trans (failed _ p)
    · split_ifs
      · exact hcollect.trans (invoke _ _ fun _ => rfl)
      · exact hcollect.trans (invoke _ _ fun _ => rfl)
      · exact hcollect
      · exact hcollect.trans (requeue _ p wsaRecv)

theorem addNewConnection (s : Server) (a : Accept) : Mute s (s.addNewConnection a) :=
  addNewConnection_rule (crash s) (fun u what hu => hu.trans (leave u what))
    (fun _ _ hu => { hu with }) (fun _ _ hu => { hu with })
    (fun _ _ _ => { failed s s.nextPtr with }) fun _ _ _ => { refl s with }

/-- A wait that has ended. -/
theorem dispatch {handles : List Handle} (hpc : s.pc = .waiting handles) (handleId : Handle)
    (result : Overlapped) (wsaRecv : Started) (accept : Accept) :
    Mute s (s.dispatch handleId result wsaRecv accept) := by
  have hwaiting : s.pc ≠ .left := by rw [hpc]; exact Pc.noConfusion
  have htake : Mute s (s.takeUp handleId) :=
    { refl s with serves := fun hs => ⟨hs.1, hwaiting⟩ }
  unfold Server.dispatch
  split_ifs
  · exact { refl s with serves := fun hs => ⟨hs.1, hwaiting⟩ }
  · have haccept : Mute s { s.takeUp handleId with acceptEx := .idle } := { htake with }
    exact haccept.trans (addNewConnection _ accept)
  · exact htake.trans (receiveBranch _ handleId result wsaRecv)

end Mute

namespace Reported

theorem start (setup : Setup) (hcb : setup.mCallback = true) :
    Reported [] (waitForEvents setup) where
  mCallback := hcb
  issued := rfl
  each _ _ h := by cases h
  later _ _ := ⟨rfl, List.not_mem_nil⟩

theorem mute (h : Reported answers s) (hm : Mute s t) : Reported answers t where
  mCallback := hm.mCallback.trans h.mCallback
  issued := h.issued.trans hm.nextSend.symm
  each number result hr := by
    obtain ⟨runs, hn, hle, heq⟩ := h.each number result hr
    have hnumbers : t.sendNumbers = s.sendNumbers := by unfold sendNumbers; rw [hm.sends]
    refine ⟨runs, (hm.notices number).trans hn, by rw [hnumbers]; exact hle, fun ht => ?_⟩
    rw [hnumbers]
    exact heq (hm.serves ht)
  later number hn := by
    obtain ⟨hnil, hmem⟩ := h.later number (hm.nextSend ▸ hn)
    have hnumbers : t.sendNumbers = s.sendNumbers := by unfold sendNumbers; rw [hm.sends]
    exact ⟨(hm.notices number).trans hnil, by rw [hnumbers]; exact hmem⟩

/-- **A `WSASend`** with what is reported at once; if it is accepted its routine is to run. -/
theorem answered (h : Reported answers s) {result : Started} {l : List Event}
    (htrace : t.trace = s.trace ++ l)
    (hes : l.filterMap (notice s.nextSend) = result.notices)
    (hother : ∀ number, number ≠ s.nextSend → l.filterMap (notice number) = [])
    (hnumbers : t.sendNumbers = s.sendNumbers ++ List.replicate result.routines s.nextSend)
    (hnext : t.nextSend = s.nextSend + 1) (hcb : t.mCallback = s.mCallback)
    (hserves : t.Serves → s.Serves) : Reported (answers ++ [result]) t where
  mCallback := hcb.trans h.mCallback
  issued := by rw [List.length_append, h.issued, hnext]; rfl
  each number result' hr := by
    have hnotices : t.notices number = s.notices number ++ l.filterMap (notice number) := by
      unfold notices
      rw [htrace, List.filterMap_append]
    rcases eq_or_ne number s.nextSend with rfl | hne
    · -- the new send
      obtain ⟨hnil, hmem⟩ := h.later s.nextSend le_rfl
      rw [List.getElem?_append_right h.issued.le, h.issued, Nat.sub_self] at hr
      obtain rfl : result = result' := Option.some.inj hr
      have hcount : t.sendNumbers.count s.nextSend = result.routines := by
        rw [hnumbers, List.count_append, List.count_eq_zero_of_not_mem hmem,
          List.count_replicate_self, Nat.zero_add]
      refine ⟨0, by rw [hnotices, hnil, hes]; simp, ?_, fun _ => ?_⟩
      · rw [hcount, Nat.zero_add]
      · rw [hcount, Nat.zero_add]
    · have hlt : number < answers.length := by
        have hlt := (List.getElem?_eq_some_iff.mp hr).1
        rw [List.length_append, List.length_singleton, h.issued] at hlt
        rw [h.issued]
        omega
      rw [List.getElem?_append_left hlt] at hr
      obtain ⟨runs, hn, hle, heq⟩ := h.each number result' hr
      have hcount : t.sendNumbers.count number = s.sendNumbers.count number := by
        rw [hnumbers, List.count_append, List.count_replicate, if_neg (by simpa using hne.symm),
          Nat.add_zero]
      refine ⟨runs, by rw [hnotices, hother number hne, List.append_nil, hn], ?_, fun ht => ?_⟩
      · rw [hcount]
        exact hle
      · rw [hcount]
        exact heq (hserves ht)
  later number hn := by
    rw [hnext] at hn
    obtain ⟨hnil, hmem⟩ := h.later number (by omega)
    have hne : number ≠ s.nextSend := by omega
    refine ⟨?_, ?_⟩
    · rw [notices, htrace, List.filterMap_append, hother number hne, List.append_nil]
      exact hnil
    · rw [hnumbers, List.mem_append, List.mem_replicate]
      rintro (hmem' | ⟨-, he⟩)
      · exact hmem hmem'
      · exact hne he

theorem wsaSend (h : Reported answers s) (e : Sending) (result : Started) :
    Reported (answers ++ [result]) (s.wsaSend e result) := by
  have hcb := h.mCallback
  have hone : ∀ number (n : Notice), number ≠ s.nextSend →
      (if s.nextSend = number then some n else none) = none := fun number n hne =>
    if_neg hne.symm
  cases result with
  | pending =>
    have hstart : Reported (answers ++ [.pending]) (s.start e) :=
      h.answered rfl (by simp [notice, Started.notices])
        (fun number hne => by simp [notice]) List.map_append rfl rfl id
    exact hstart.mute (Mute.aside (aside_back _ _))
  | immediate =>
    unfold Server.wsaSend
    rw [if_pos hcb]
    refine h.answered (l := [_, _]) (List.append_assoc _ _ _) ?_ (fun number hne => ?_)
      List.map_append rfl rfl id
    · simp [notice, Started.notices, List.filterMap_cons]
    · simp [notice, hone number _ hne]
  | failed error =>
    unfold Server.wsaSend
    simp only
    rw [if_pos hcb]
    refine h.answered (l := [.sending s.nextSend e.connection (s.heap e.connection).mIdentifier] ++
      [.failed e.connection] ++ [.sendFailed s.nextSend (s.heap e.connection).mIdentifier
        (sendError (s.heap e.connection).mSocket error)]) ?_ ?_ (fun number hne => ?_)
      (List.append_nil _).symm rfl rfl id
    · rw [← List.append_assoc, ← List.append_assoc]
      rfl
    · rw [List.filterMap_append, List.filterMap_append]
      simp [notice, Started.notices, List.filterMap_cons]
    · simp [notice, hone number _ hne]

/-- **The completion routine** of a send has run; of a server that serves it reports the send. -/
theorem routine (h : Reported answers s) {e : Send} (he : e ∈ s.sends) {P : Prop}
    [Decidable P] (hnotices : ∀ number, t.notices number =
      s.notices number ++ if P ∧ e.number = number then [.complete] else [])
    (hsends : t.sends = s.sends.erase e) (hnext : t.nextSend = s.nextSend)
    (hcb : t.mCallback = s.mCallback) (hserves : t.Serves → s.Serves ∧ P) :
    Reported answers t := by
  have hcount : ∀ number, s.sendNumbers.count number =
      t.sendNumbers.count number + if e.number = number then 1 else 0 := by
    intro number
    unfold sendNumbers
    rw [hsends, ((List.perm_cons_erase he).map Send.number).count_eq, List.map_cons,
      List.count_cons]
    simp only [beq_iff_eq]
  refine ⟨hcb.trans h.mCallback, h.issued.trans hnext.symm, fun number result hr => ?_,
    fun number hn => ?_⟩
  · obtain ⟨runs, hn, hle, heq⟩ := h.each number result hr
    have hnumber := hcount number
    by_cases hown : P ∧ e.number = number
    · rw [if_pos hown.2] at hnumber
      refine ⟨runs + 1, ?_, by omega, fun ht => ?_⟩
      · rw [hnotices, if_pos hown, hn, List.replicate_succ', List.append_assoc]
      · have := heq (hserves ht).1
        omega
    · refine ⟨runs, by rw [hnotices, if_neg hown, List.append_nil, hn], by omega, fun ht => ?_⟩
      have hne : e.number ≠ number := fun heq => hown ⟨(hserves ht).2, heq⟩
      rw [if_neg hne] at hnumber
      have := heq (hserves ht).1
      omega
  · obtain ⟨hnil, hmem⟩ := h.later number (hnext ▸ hn)
    have hne : e.number ≠ number := fun heq => hmem (heq ▸ List.mem_map_of_mem he)
    have hnumber := hcount number
    rw [if_neg hne, List.count_eq_zero_of_not_mem hmem] at hnumber
    refine ⟨by rw [hnotices, hnil, if_neg fun hc => hne hc.2]; rfl, ?_⟩
    exact List.count_eq_zero.mp hnumber.symm

theorem dataSentToClient (h : Reported answers s) {e : Send} (he : e ∈ s.sends)
    (cbTransferred : ℕ) : (s.dataSentToClient e cbTransferred).undefined = false →
      Reported answers (s.dataSentToClient e cbTransferred) := by
  refine dataSentToClient_rule (P := fun u => u.undefined = false → Reported answers u)
    (fun hshut _ => ?_) (fun hu => Bool.noConfusion hu) (fun hu => Bool.noConfusion hu)
    (fun _ hcb => Bool.noConfusion (h.mCallback.symm.trans hcb)) fun _ _ target rest _ _ => ?_
  · -- what does not report does not serve any more
    refine h.routine (P := False) he (fun number => ?_) rfl rfl rfl fun hu =>
      Bool.noConfusion (hshut.symm.trans hu.1)
    rw [if_neg (fun hc => hc.1), List.append_nil]
    rfl
  · refine h.routine (P := True) he (fun number => ?_) rfl rfl rfl fun hu => ⟨hu, trivial⟩
    show List.filterMap (notice number)
      (s.trace ++ [.sendComplete e.number target cbTransferred]) = _
    rw [List.filterMap_append]
    congr 1
    by_cases hn : e.number = number
    · simp [notice, hn]
    · simp [notice, hn]

end Reported

/-- **A step** that is not undefined, with the answer of its `WSASend` if it is one. -/
theorem reported_step (h : Reported answers s) (hlive : Live s) {a : Action}
    (ht : step s a = some t) (hdefined : t.undefined = false) :
    Reported (answers ++ a.answer.toList) t := by
  have hmute : a.answer = none → Mute s t → Reported (answers ++ a.answer.toList) t := by
    intro hnone hm
    rw [hnone, Option.toList_none, List.append_nil]
    exact h.mute hm
  cases a with
  | call c =>
    obtain ⟨-, -, rfl⟩ := step_call ht
    refine hmute rfl ?_
    cases c with
    | send data identifier => exact Mute.aside (aside_send s data identifier)
    | broadcast data => exact Mute.aside (aside_broadcast s data)
    | shutdown => exact Mute.shutdown hlive
    | addConnection mSocket hEvent identifier => exact { Mute.refl s with }
  | wsaSend result =>
    obtain ⟨e, -, rfl⟩ := step_wsaSend ht
    revert hdefined
    exact use_rule (P := fun u => u.undefined = false → Reported (answers ++ [result]) u)
      (fun hu => Bool.noConfusion hu) fun _ _ => h.wsaSend e result
  | returns wsaRecv =>
    obtain ⟨-, f, stack, hstack, rfl⟩ := step_returns ht
    have hpop : Mute s { s with stack := stack } := { Mute.refl s with }
    exact hmute rfl (hpop.trans (Mute.resume (hlive.pop hstack) wsaRecv f))
  | throws what =>
    obtain ⟨-, f, stack, -, rfl⟩ := step_throws ht
    have hpop : Mute s { s with stack := stack } := { Mute.refl s with }
    exact hmute rfl (hpop.trans (Mute.unwind _ what f))
  | wait =>
    obtain ⟨-, hpc, ⟨-, rfl⟩ | ⟨-, rfl⟩⟩ := step_wait ht
    all_goals
      exact hmute rfl { Mute.refl s with
        serves := fun hs => ⟨hs.1, by rw [hpc]; exact Pc.noConfusion⟩ }
  | ioCompletion =>
    obtain ⟨-, ⟨handles, hpc⟩, ⟨-, rfl⟩ | ⟨-, rfl⟩⟩ := step_ioCompletion ht
    all_goals
      exact hmute rfl { Mute.refl s with
        serves := fun hs => ⟨hs.1, by rw [hpc]; exact Pc.noConfusion⟩ }
  | waitFailed error =>
    obtain ⟨-, rfl⟩ := step_waitFailed ht
    exact hmute rfl (Mute.leave s _)
  | signaled i result wsaRecv accept =>
    obtain ⟨handles, handleId, hpc, -, -, -, -, rfl⟩ := step_signaled ht
    exact hmute rfl (Mute.dispatch hpc handleId result wsaRecv accept)
  | dataSentToClient number cbTransferred =>
    obtain ⟨-, -, e, he, rfl⟩ := step_dataSentToClient ht
    show Reported (answers ++ []) _
    rw [List.append_nil]
    exact h.dataSentToClient (List.mem_of_find?_eq_some he) cbTransferred hdefined
  | registers p identifier =>
    obtain ⟨-, -, -, rfl⟩ := step_registers ht
    exact hmute rfl { Mute.refl s with }
  | receives p =>
    obtain ⟨-, rfl⟩ := step_receives ht
    exact hmute rfl { Mute.refl s with }
  | connects =>
    obtain ⟨sckt, -, rfl⟩ := step_connects ht
    exact hmute rfl { Mute.refl s with }

theorem reported_run : ∀ (as : List Action) {s t : Server} {answers : List Started}, Live s →
    Reported answers s → run step s as = some t → t.undefined = false →
    Reported (answers ++ as.filterMap Action.answer) t
  | [], s, t, answers, _, h, hrun, _ => by
    rw [run_nil, Option.some.injEq] at hrun
    subst hrun
    rwa [List.filterMap_nil, List.append_nil]
  | a :: as, s, t, answers, hlive, h, hrun, hdefined => by
    obtain ⟨u, hu, hrun⟩ := run_cons_some hrun
    have hstep := reported_step h hlive hu (defined_of_run hrun hdefined)
    have hrest := reported_run as (hlive.step hu) hstep hrun hdefined
    have hcons : (a :: as).filterMap Action.answer =
        a.answer.toList ++ as.filterMap Action.answer := by
      rw [List.filterMap_cons]
      cases a.answer <;> rfl
    rw [hcons, ← List.append_assoc]
    exact hrest

/-- **What is reported of each send**, in every state of every run that is not undefined: that its
`WSASend` was refused, or has completed at once; then the run of its routine, if it was accepted,
unless it is to come or the server has been shut down. The sends of a run are numbered by the
`WSASend`s in it. -/
theorem notices_each (setup : Setup) (hcb : setup.mCallback = true) {as : List Action}
    (hrun : run step (waitForEvents setup) as = some t) (hdefined : t.undefined = false) :
    t.nextSend = (as.filterMap Action.answer).length ∧
      (∀ number result, (as.filterMap Action.answer)[number]? = some result →
        Noticed result t number) ∧
      ∀ number, t.nextSend ≤ number → t.notices number = [] := by
  have h := reported_run as (Live.start setup) (Reported.start setup hcb) hrun hdefined
  rw [List.nil_append] at h
  exact ⟨h.issued.symm, h.each, fun number hn => (h.later number hn).1⟩

/-- A `broadcast` to the only client, which completes at once; then the loop waits again and the
completion routine runs. -/
def broadcasting : List Action :=
  delivering [1] ++ [.returns .pending, .call (.broadcast [104, 105]), .wsaSend .immediate,
    .returns .pending, .wait, .dataSentToClient 0 2]

theorem notices_each_broadcasting : ∃ t, run step (waitForEvents listening) broadcasting = some t ∧
    t.Serves ∧ t.sendNumbers = [] ∧ t.notices 0 = [.complete, .complete] := by
  obtain ⟨t, ht, hdefined, hserves, hnone⟩ := exists_run step (waitForEvents listening) broadcasting
    (fun t => t.undefined = false ∧ (t.mHasBeenShutdown = false ∧ t.pc ≠ .left) ∧
      t.sendNumbers = []) (by decide)
  obtain ⟨runs, hnotices, -, hruns⟩ :=
    (notices_each listening rfl ht hdefined).2.1 0 .immediate rfl
  have hone := hruns hserves
  rw [hnone] at hone
  obtain rfl : runs = 1 := hone
  exact ⟨t, ht, hserves, hnone, hnotices⟩

end Server

end C11Http.Windows
