import C11Http.Lib.Release
import C11Http.Windows.Known
import C11Http.Windows.Stray

/-! # One broadcast of the windows server

`Server::broadcast` walks a copy of the registered connections, and every `send` of it may call
`sendFailed` or `sendComplete`, which may call the server again, before the walk goes on. A run of
the server is followed from the call of one `broadcast` to its end: on which connections it has
attempted a send, for which it failed, which connections it has removed, which ones the sends of
the callbacks have removed, and a log of the connections it has used and of all deletions. It has
ended when nothing is being sent and the stack of callbacks is as high as it was.

The broadcast uses a connection when it turns to it, in its `WSASend`, and once more behind its
`sendFailed`, to find it in the registry under its identifier.

`right_of_spares`: in every run that does not shut the server down, a broadcast attempts one send on
every connection, uses no deleted one, and removes exactly those whose send failed, while it finds
each of these under its identifier, the sends of its callbacks remove no connection that it is still
to use, and no exception cuts it short. -/

namespace C11Http.Windows

open C11Http.Lib.Run C11Http.Lib.Release Connections

/-- The connection that an event deletes. -/
def Event.deletes : Event → Option Ptr
  | .deleted p => some p
  | _ => none

namespace Server

/-- The connections deleted from `s` to `t`. -/
def newlyDeleted (s t : Server) : List Ptr := (t.trace.drop s.trace.length).filterMap Event.deletes

/-- The connection a send is under way for. -/
def pending (s : Server) : List Ptr := (s.sending.map Sending.connection).toList

/-- The identifier of a connection finds the connection itself. -/
def Finds (s : Server) (p : Ptr) : Prop :=
  s.mConnections.mMapping (s.heap p).mIdentifier = some p

instance (s : Server) (p : Ptr) : Decidable (s.Finds p) := by unfold Finds; infer_instance

/-- What is deleted stays outside of the registry. -/
def Departed (ps : List Ptr) (s : Server) : Prop := ∀ p ∈ ps, p < s.nextPtr ∧ p ∉ alive s

/-! ### Deletions -/

variable {s t : Server}

theorem newlyDeleted_of_trace (es : List Event) (h : t.trace = s.trace ++ es) :
    newlyDeleted s t = es.filterMap Event.deletes := by
  unfold newlyDeleted
  rw [h, List.drop_left]

/-- Events that delete nothing. -/
theorem newlyDeleted_nil {es : List Event} (h : t.trace = s.trace ++ es)
    (hes : es.filterMap Event.deletes = []) : newlyDeleted s t = [] :=
  (newlyDeleted_of_trace es h).trans hes

theorem newlyDeleted_of_eq (h : t.trace = s.trace) : newlyDeleted s t = [] :=
  newlyDeleted_of_trace [] (h.trans (List.append_nil _).symm)

theorem Departed.same {ps : List Ptr} (h : Departed ps s) (hptr : s.nextPtr ≤ t.nextPtr)
    (halive : alive t = alive s) : Departed ps t := fun p hp =>
  ⟨(h p hp).1.trans_le hptr, halive ▸ (h p hp).2⟩

/-- A registered connection is deleted. -/
theorem Departed.drop {ps : List Ptr} (h : Departed ps s) (hlive : Live s) {p : Ptr}
    (hp : p ∈ s.mConnections.mContainer) : Departed (ps ++ [p]) (s.drop p) := by
  have hsub : ∀ q, q ∈ alive (s.drop p) → q ∈ alive s ∧ q ≠ p := by
    intro q hq
    have hq' : q ∈ s.mConnections.mContainer.erase p ++ s.informing := hq
    rcases List.mem_append.mp hq' with hmem | hmem
    · exact ⟨Live.registered_alive (List.mem_of_mem_erase hmem),
        ne_of_mem_of_not_mem hmem hlive.sound.distinct.nodup.not_mem_erase⟩
    · exact ⟨Live.informing_alive hmem, fun he => hlive.not_registered hmem (he ▸ hp)⟩
  intro q hq
  rcases List.mem_append.mp hq with hq | hq
  · exact ⟨(h q hq).1, fun hmem => (h q hq).2 (hsub q hmem).1⟩
  · obtain rfl := List.mem_singleton.mp hq
    exact ⟨hlive.fresh _ (Live.registered_alive hp), fun hmem => (hsub _ hmem).2 rfl⟩

/-- A new object is registered. -/
theorem Departed.enrollNew {ps : List Ptr} (h : Departed ps s) (mSocket : Socket)
    (hEvent : Handle) (identifier : Bytes) :
    Departed ps ((s.newConnection mSocket hEvent).enroll s.nextPtr identifier) := by
  intro p hp
  obtain ⟨hlt, hno⟩ := h p hp
  refine ⟨Nat.lt_succ_of_lt hlt, fun hmem => ?_⟩
  rcases Live.mem_alive_enroll.mp hmem with he | hmem
  · exact absurd he (Nat.ne_of_lt hlt)
  · exact hno hmem

theorem Departed.not_mem {ps : List Ptr} (h : Departed ps s) {p : Ptr}
    (hp : p ∈ s.mConnections.mContainer) : p ∉ ps := fun hmem =>
  (h p hmem).2 (Live.registered_alive hp)

end Server

/-- A run of the server behind the call of a broadcast, at a stack of the given depth. -/
structure Broadcasting where
  server : Server
  depth : ℕ
  registered : List Ptr
  attempted : List Ptr
  failed : List Ptr
  removed : List Ptr
  others : List Ptr
  log : List (Access Ptr)

namespace Broadcasting

open Server

/-- The broadcast is called. -/
def start (s : Server) (data : Bytes) : Broadcasting :=
  { server := s.broadcast data
    depth := s.stack.length
    registered := s.mConnections.getConnections
    attempted := []
    failed := []
    removed := []
    others := []
    log := (pending (s.broadcast data)).map .use }

/-- The broadcast has ended. -/
def Over (b : Broadcasting) : Prop := b.server.sending = none ∧ b.server.stack.length = b.depth

/-- It is the broadcast that goes on: with a `WSASend`, or behind one of its callbacks. -/
def Own (b : Broadcasting) : Action → Prop
  | .wsaSend _ => b.server.stack.length = b.depth
  | .returns _ => b.server.stack.length = b.depth + 1
  | _ => False

instance (b : Broadcasting) : Decidable b.Over := by unfold Over; infer_instance

instance (b : Broadcasting) (a : Action) : Decidable (b.Own a) := by
  cases a <;> unfold Own <;> infer_instance

/-- The connection an action attempts a send on. -/
def attempt (s : Server) : Action → List Ptr
  | .wsaSend _ => pending s
  | _ => []

/-- The connection whose send fails in an action. -/
def failure (s : Server) : Action → List Ptr
  | .wsaSend (.failed _) => pending s
  | _ => []

/-- The connection that an action uses. -/
def used (s : Server) : Action → List Ptr
  | .wsaSend _ => pending s
  | .returns _ =>
    match s.stack with
    | .sendFailed connection _ :: _ => [connection]
    | _ => []
  | _ => []

/-- What is known behind an action that has led to `t`. -/
def advance (b : Broadcasting) (a : Action) (t : Server) : Broadcasting :=
  if b.Own a then
    { b with
      server := t
      attempted := b.attempted ++ attempt b.server a
      failed := b.failed ++ failure b.server a
      removed := b.removed ++ newlyDeleted b.server t
      log := b.log ++ (used b.server a).map .use ++ (newlyDeleted b.server t).map .release ++
        (pending t).map .use }
  else
    { b with
      server := t
      others := b.others ++ newlyDeleted b.server t
      log := b.log ++ (newlyDeleted b.server t).map .release }

def step (b : Broadcasting) (a : Action) : Option Broadcasting :=
  if b.Over then none else (b.server.step a).map (b.advance a)

/-- **A broadcast is right**: nothing deleted is used, and in the end one send has been attempted on
every connection that was registered and has not been removed before, and of the connections that
the callbacks' own sends have not removed exactly those are removed whose send failed. -/
structure Right (b : Broadcasting) : Prop where
  attempts : b.Over → ∀ p ∈ b.registered,
    b.attempted.count p = 1 ∨ b.attempted.count p = 0 ∧ .release p ∈ b.log
  proper : Proper b.log
  removals : b.Over → ∀ p, p ∉ b.others → (p ∈ b.removed ↔ p ∈ b.failed)

/-- The callback of the broadcast that runs. -/
def frame (b : Broadcasting) : Option Frame := b.server.stack.reverse[b.depth]?

/-- The last callback of a broadcast, for a send that has not failed. -/
def Last : Frame → Prop
  | .sendComplete caller => caller.rest = []
  | _ => False

/-- **The condition**: behind a failed send the broadcast finds the connection itself under its
identifier, a removal behind a failed send of a callback finds no connection that the broadcast is
still to use, and no exception leaves a callback of the broadcast but the last. -/
def Spares (b : Broadcasting) : Action → Prop
  | .wsaSend (.failed _) => b.server.stack.length = b.depth → b.server.mCallback = false →
      ∀ e ∈ b.server.sending, b.server.Finds e.connection
  | .returns _ =>
    match b.server.stack with
    | .sendFailed connection _ :: stack =>
      (stack.length = b.depth → b.server.Finds connection) ∧
      (stack.length ≠ b.depth →
        ∀ p ∈ b.server.mConnections.mMapping (b.server.heap connection).mIdentifier,
          ∀ f ∈ b.frame, p ∉ f.connections)
    | _ => True
  | .throws _ => b.server.stack.length = b.depth + 1 → ∀ f ∈ b.frame, Last f
  | _ => True

variable {s t : Server} {b : Broadcasting}

/-! ### The place of a broadcast -/

/-- A callback of the broadcast, with the connections left: all sends before have been attempted,
and those that failed removed, but for the one that is reported. -/
structure Called (b : Broadcasting) (f : Frame) (data : Bytes) (rest : List Ptr) : Prop where
  frame : f = .sendComplete (.broadcast data rest) ∧ b.removed = b.failed ∨
    ∃ c ∈ b.attempted, f = .sendFailed c (.broadcast data rest) ∧ b.failed = b.removed ++ [c]
  left : b.registered = b.attempted ++ rest
  registered : ∀ p ∈ f.connections, p ∈ b.server.mConnections.mContainer

/-- Where the broadcast is: before a `WSASend`, in a callback, or at its end. -/
inductive Place (b : Broadcasting) : Prop
  | sends (e : Sending) (data : Bytes) (rest : List Ptr) (sending : b.server.sending = some e)
      (depth : b.server.stack.length = b.depth) (caller : e.caller = .broadcast data rest)
      (left : b.registered = b.attempted ++ e.connection :: rest) (removed : b.removed = b.failed)
      (registered : ∀ p ∈ e.connection :: rest, p ∈ b.server.mConnections.mContainer)
  | calls (inner base : List Frame) (f : Frame) (data : Bytes) (rest : List Ptr)
      (stack : b.server.stack = inner ++ f :: base) (depth : base.length = b.depth)
      (called : b.Called f data rest)
  | over (sending : b.server.sending = none) (depth : b.server.stack.length = b.depth)
      (left : b.registered = b.attempted) (removed : b.removed = b.failed)

/-- What holds while the condition has been kept. -/
structure Inv (b : Broadcasting) : Prop where
  live : Live b.server
  nodup : b.registered.Nodup
  proper : Proper b.log
  departed : Departed (released b.log) b.server
  place : Place b

/-- **The broadcast turns to the connections that are left.** -/
theorem inv_sendEach (data : Bytes) (rest : List Ptr) (hlive : Live b.server)
    (hnd : b.registered.Nodup) (hsending : b.server.sending = none)
    (hdepth : b.server.stack.length = b.depth) (hproper : Proper b.log)
    (hdep : Departed (released b.log) b.server) (hleft : b.registered = b.attempted ++ rest)
    (hremoved : b.removed = b.failed)
    (hreg : ∀ p ∈ rest, p ∈ b.server.mConnections.mContainer) :
    Inv { b with
      server := b.server.sendEach data rest
      log := b.log ++ (pending (b.server.sendEach data rest)).map .use } := by
  have haside := aside_sendEach b.server data rest
  have hlive' : Live (b.server.sendEach data rest) := hlive.aside haside
  have hpend : ∀ p ∈ pending (b.server.sendEach data rest), p ∈ rest := by
    cases rest with
    | nil =>
      intro p hp
      have hp' : p ∈ (b.server.sending.map Sending.connection).toList := hp
      rw [hsending] at hp'
      cases hp'
    | cons c rest =>
      intro p hp
      rw [List.mem_singleton.mp hp]
      exact List.mem_cons_self
  refine ⟨hlive', hnd, hproper.uses fun p hp => hdep.not_mem (hreg p (hpend p hp)), ?_, ?_⟩
  · rw [released_append, released_map_use, List.append_nil]
    obtain ⟨targets, sending, he⟩ := haside
    refine hdep.same ?_ ?_
    · show b.server.nextPtr ≤ (b.server.sendEach data rest).nextPtr
      rw [he]
    · show alive (b.server.sendEach data rest) = alive b.server
      rw [he]
      rfl
  · cases rest with
    | nil => exact .over hsending hdepth (hleft.trans (List.append_nil _)) hremoved
    | cons c rest => exact .sends _ data rest rfl hdepth rfl hleft hremoved hreg

/-- **The call of the broadcast.** -/
theorem inv_start (hlive : Live s) (hsending : s.sending = none) (data : Bytes) :
    Inv (start s data) := by
  have hinv := inv_sendEach data s.mConnections.getConnections
    (b := { start s data with server := s, log := [] }) hlive hlive.sound.distinct.nodup hsending
    rfl proper_nil (fun p hp => by cases hp) rfl rfl fun _ hp => hp
  exact hinv

/-! ### The steps of the broadcast itself -/

theorem advance_own {a : Action} (h : b.Own a) {gone : List Ptr}
    (hgone : newlyDeleted b.server t = gone) : b.advance a t =
      { b with
        server := t
        attempted := b.attempted ++ attempt b.server a
        failed := b.failed ++ failure b.server a
        removed := b.removed ++ gone
        log := b.log ++ (used b.server a).map .use ++ gone.map .release ++
          (pending t).map .use } := by
  unfold advance
  rw [if_pos h, hgone]

/-- A removal behind a failed send that finds the connection itself. -/
theorem removeServerConnectionById_finds (hlive : Live s) {p : Ptr} (hfinds : s.Finds p) :
    p ∈ s.mConnections.mContainer ∧
      s.removeServerConnectionById (s.heap p).mIdentifier = s.drop p := by
  refine ⟨(hlive.sound.mapped _ _ hfinds).1, ?_⟩
  rcases removeServerConnectionById_cases hlive.sound (s.heap p).mIdentifier with
    ⟨hno, -⟩ | ⟨q, hq, he⟩
  · rw [hfinds] at hno
    cases hno
  · rw [hfinds, Option.some.injEq] at hq
    rw [he, ← hq]

/-- The broadcast goes on behind a removal or without one, from a server `u` with `rest` left. -/
theorem Inv.goOn (h : Inv b) {a : Action} (hown : b.Own a) (u : Server) (data : Bytes)
    (rest gone : List Ptr) (ht : t = u.sendEach data rest) (hlive : Live u)
    (hsending : u.sending = none) (hdepth : u.stack.length = b.depth)
    (htrace : newlyDeleted b.server u = gone)
    (hgone : Proper (b.log ++ (used b.server a).map .use ++ gone.map .release))
    (hdep : Departed (released b.log ++ gone) u)
    (hleft : b.registered = b.attempted ++ attempt b.server a ++ rest)
    (hremoved : b.removed ++ gone = b.failed ++ failure b.server a)
    (hreg : ∀ p ∈ rest, p ∈ u.mConnections.mContainer) : Inv (b.advance a t) := by
  have htr : newlyDeleted b.server t = gone := by
    rw [← htrace, ht]
    obtain ⟨targets, sending, he⟩ := aside_sendEach u data rest
    rw [he]
    rfl
  rw [advance_own hown htr, ht]
  refine inv_sendEach data rest (b := { b with
      server := u
      attempted := b.attempted ++ attempt b.server a
      failed := b.failed ++ failure b.server a
      removed := b.removed ++ gone
      log := b.log ++ (used b.server a).map .use ++ gone.map .release }) hlive h.nodup hsending
    hdepth hgone ?_ hleft hremoved hreg
  show Departed (released (b.log ++ (used b.server a).map .use ++ gone.map .release)) u
  rw [released_append, released_append, released_map_use, released_map_release, List.append_nil]
  exact hdep

/-- A callback of the broadcast is called, for a send that has completed or has failed. -/
theorem Inv.callBack (h : Inv b) {a : Action} (hown : b.Own a) {u : Server} {e : Event} {f : Frame}
    (data : Bytes) (rest : List Ptr) (ht : t = u.invoke e f) (hlive : Live t)
    (hsending : u.sending = none) (hstack : u.stack = b.server.stack)
    (hdepth : b.server.stack.length = b.depth) (hdel : newlyDeleted b.server t = [])
    (hptr : u.nextPtr = b.server.nextPtr) (hinf : u.informing = b.server.informing)
    (hconn : u.mConnections = b.server.mConnections)
    (hused : ∀ p ∈ used b.server a, p ∈ b.server.mConnections.mContainer)
    (hleft : b.registered = b.attempted ++ attempt b.server a ++ rest)
    (hframe : f = .sendComplete (.broadcast data rest) ∧
        b.removed = b.failed ++ failure b.server a ∨
      ∃ c ∈ b.attempted ++ attempt b.server a, f = .sendFailed c (.broadcast data rest) ∧
        b.failed ++ failure b.server a = b.removed ++ [c])
    (hreg : ∀ p ∈ f.connections, p ∈ b.server.mConnections.mContainer) : Inv (b.advance a t) := by
  have hpend : pending t = [] := by
    unfold pending
    rw [ht]
    show (u.sending.map Sending.connection).toList = []
    rw [hsending]
    rfl
  rw [advance_own hown hdel, hpend]
  simp only [List.map_nil, List.append_nil]
  have hreleased : released (b.log ++ (used b.server a).map .use) = released b.log := by
    rw [released_append, released_map_use, List.append_nil]
  refine ⟨hlive, h.nodup, h.proper.uses fun p hp => h.departed.not_mem (hused p hp), ?_, ?_⟩
  · show Departed (released (b.log ++ (used b.server a).map .use)) t
    rw [hreleased, ht]
    refine h.departed.same hptr.ge ?_
    show u.mConnections.mContainer ++ u.informing = _
    rw [hconn, hinf]
    rfl
  · refine .calls [] b.server.stack f data rest ?_ hdepth ⟨hframe, hleft, fun p hp => ?_⟩
    · show t.stack = f :: b.server.stack
      rw [ht, ← hstack]
      rfl
    · show p ∈ t.mConnections.mContainer
      rw [ht]
      show p ∈ u.mConnections.mContainer
      rw [hconn]
      exact hreg p hp

/-- **A `WSASend` of the broadcast.** -/
theorem Inv.wsaSend (h : Inv b) {result : Started} {e : Sending} {data : Bytes} {rest : List Ptr}
    (hsending : b.server.sending = some e) (hdepth : b.server.stack.length = b.depth)
    (hcaller : e.caller = .broadcast data rest)
    (hleft : b.registered = b.attempted ++ e.connection :: rest) (hremoved : b.removed = b.failed)
    (hreg : ∀ p ∈ e.connection :: rest, p ∈ b.server.mConnections.mContainer)
    (hspares : b.Spares (.wsaSend result)) (ht : t = b.server.wsaSend e result) :
    Inv (b.advance (.wsaSend result) t) := by
  have hown : b.Own (.wsaSend result) := hdepth
  have hpend : pending b.server = [e.connection] := by
    unfold pending
    rw [hsending]
    rfl
  have hleft' : b.registered = b.attempted ++ attempt b.server (.wsaSend result) ++ rest := by
    show b.registered = b.attempted ++ pending b.server ++ rest
    rw [hpend, hleft, List.append_assoc]
    rfl
  have hused : used b.server (.wsaSend result) = [e.connection] := hpend
  have hconn := hreg e.connection List.mem_cons_self
  have husedreg : ∀ p ∈ used b.server (.wsaSend result), p ∈ b.server.mConnections.mContainer := by
    rw [hused]
    intro p hp
    rw [List.mem_singleton.mp hp]
    exact hconn
  have hproper : Proper (b.log ++ (used b.server (.wsaSend result)).map .use) :=
    h.proper.uses fun p hp => h.departed.not_mem (husedreg p hp)
  have hissue : Live (b.server.issue e) := { h.live with }
  have hstart : Live (b.server.start e) := { h.live with }
  have hon : failure b.server (.wsaSend result) = [] → t = (b.server.start e).sendEach data rest →
      Inv (b.advance (.wsaSend result) t) := fun hfail ht =>
    h.goOn hown _ data rest [] ht hstart rfl hdepth (newlyDeleted_nil rfl rfl)
      (by rw [List.map_nil, List.append_nil]; exact hproper)
      (by rw [List.append_nil]; exact h.departed) hleft' (by rw [hfail, hremoved])
      fun p hp => hreg p (List.mem_cons_of_mem _ hp)
  have hlive : Live t := ht ▸ h.live.wsaSend e result
  cases result with
  | pending => exact hon rfl (by rw [ht]; unfold Server.wsaSend; rw [hcaller]; rfl)
  | immediate =>
    by_cases hcb : b.server.mCallback = true
    · have ht' : t = (b.server.start e).invoke (.sendComplete b.server.nextSend
          (b.server.heap e.connection).mIdentifier e.data.length) (.sendComplete e.caller) := by
        rw [ht]
        exact if_pos hcb
      refine h.callBack hown data rest ht' hlive rfl rfl hdepth ?_ rfl rfl rfl
        husedreg hleft' (Or.inl ⟨by rw [hcaller], ?_⟩) fun p hp => ?_
      · rw [ht']
        exact newlyDeleted_nil (List.append_assoc _ _ _) rfl
      · show b.removed = b.failed ++ []
        rw [hremoved, List.append_nil]
      · rw [hcaller] at hp
        exact hreg p (List.mem_cons_of_mem _ hp)
    · refine hon rfl ?_
      rw [ht]
      unfold Server.wsaSend
      rw [if_neg hcb, hcaller]
      rfl
  | failed error =>
    have hfail : failure b.server (.wsaSend (.failed error)) = [e.connection] := hpend
    by_cases hcb : b.server.mCallback = true
    · have ht' : t = ((b.server.issue e).record [.failed e.connection]).invoke
          (.sendFailed b.server.nextSend (b.server.heap e.connection).mIdentifier
            (sendError (b.server.heap e.connection).mSocket error))
          (.sendFailed e.connection e.caller) := by
        rw [ht]
        exact if_pos hcb
      refine h.callBack hown data rest ht' hlive rfl rfl hdepth ?_ rfl rfl rfl
        husedreg hleft' (Or.inr ⟨e.connection, ?_, by rw [hcaller], ?_⟩) fun p hp => ?_
      · rw [ht']
        exact newlyDeleted_nil ((congrArg (· ++ _) (List.append_assoc _ _ _)).trans
          (List.append_assoc _ _ _)) rfl
      · show e.connection ∈ b.attempted ++ pending b.server
        rw [hpend]
        exact List.mem_append_right _ (List.mem_singleton_self _)
      · rw [hfail, hremoved]
      · rw [hcaller] at hp
        exact hreg p hp
    · -- without a callback the failing connection is removed at once
      have hfinds := hspares hdepth (by simpa using hcb) e (by rw [hsending]; rfl)
      have hrec : Live ((b.server.issue e).record [.failed e.connection]) := hissue.record _
      obtain ⟨-, hdrop⟩ := removeServerConnectionById_finds hrec
        (show Finds ((b.server.issue e).record [.failed e.connection]) e.connection from hfinds)
      have hdep : Departed (released b.log) ((b.server.issue e).record [.failed e.connection]) :=
        h.departed
      refine h.goOn hown (((b.server.issue e).record [.failed e.connection]).drop e.connection)
        data rest [e.connection] ?_ (hrec.drop hconn) rfl hdepth ?_ ?_ (hdep.drop hrec hconn) hleft'
        (by rw [hfail, hremoved]) fun p hp => ?_
      · rw [ht]
        unfold Server.wsaSend
        simp only [if_neg hcb, hcaller]
        rw [← hdrop]
        rfl
      · exact newlyDeleted_of_trace [.sending b.server.nextSend e.connection
            (b.server.heap e.connection).mIdentifier, .failed e.connection, .deleted e.connection,
            .closed (b.server.heap e.connection).mSocket]
          ((congrArg (· ++ _) (List.append_assoc _ _ _)).trans (List.append_assoc _ _ _))
      · refine hproper.release ?_
        rw [released_append, released_map_use, List.append_nil]
        exact h.departed.not_mem hconn
      · have hne : p ≠ e.connection := by
          have hnd := h.nodup
          rw [hleft, List.nodup_append] at hnd
          exact fun he => (List.nodup_cons.mp hnd.2.1).1 (he ▸ hp)
        exact (List.mem_erase_of_ne hne).mpr (hreg p (List.mem_cons_of_mem _ hp))

/-- **A callback of the broadcast returns.** -/
theorem Inv.returnsOwn (h : Inv b) {wsaRecv : Started} {f : Frame} {base : List Frame}
    {data : Bytes} {rest : List Ptr} (hsending : b.server.sending = none)
    (hstack : b.server.stack = f :: base) (hdepth : base.length = b.depth)
    (hcalled : b.Called f data rest) (hspares : b.Spares (.returns wsaRecv))
    (ht : t = { b.server with stack := base }.resume wsaRecv f) :
    Inv (b.advance (.returns wsaRecv) t) := by
  have hown : b.Own (.returns wsaRecv) := by
    show b.server.stack.length = b.depth + 1
    rw [hstack, List.length_cons, hdepth]
  have hpop : Live { b.server with stack := base } := h.live.pop hstack
  have hleft : b.registered = b.attempted ++ attempt b.server (.returns wsaRecv) ++ rest :=
    hcalled.left.trans (congrArg (· ++ rest) (List.append_nil _).symm)
  have hfail : b.failed ++ failure b.server (.returns wsaRecv) = b.failed := List.append_nil _
  rcases hcalled.frame with ⟨rfl, hremoved⟩ | ⟨c, hatt, rfl, hremoved⟩
  · have hused : used b.server (.returns wsaRecv) = [] := by
      unfold used
      rw [hstack]
    refine h.goOn hown { b.server with stack := base } data rest [] ht hpop hsending hdepth
      (newlyDeleted_of_eq rfl) ?_ (by rw [List.append_nil]; exact h.departed) hleft
      (by rw [hfail, List.append_nil, hremoved]) fun p hp => hcalled.registered p hp
    rw [hused, List.map_nil, List.map_nil, List.append_nil, List.append_nil]
    exact h.proper
  · have hused : used b.server (.returns wsaRecv) = [c] := by
      unfold used
      rw [hstack]
    have hc := hcalled.registered c List.mem_cons_self
    have hdep : Departed (released b.log) { b.server with stack := base } := h.departed
    unfold Spares at hspares
    simp only [hstack] at hspares
    obtain ⟨-, hdrop⟩ := removeServerConnectionById_finds hpop
      (show Finds { b.server with stack := base } c from hspares.1 hdepth)
    have hproper : Proper (b.log ++ (used b.server (.returns wsaRecv)).map .use) := by
      rw [hused]
      refine h.proper.uses fun p hp => ?_
      rw [List.mem_singleton.mp hp]
      exact h.departed.not_mem hc
    refine h.goOn hown ({ b.server with stack := base }.drop c) data rest [c] ?_ (hpop.drop hc)
      hsending hdepth ?_ ?_ (hdep.drop hpop hc) hleft (by rw [hfail, hremoved]) fun p hp => ?_
    · rw [ht, ← hdrop]
      exact use_mem (s := { b.server with stack := base }) hc _
    · exact newlyDeleted_of_trace [.deleted c, .closed (b.server.heap c).mSocket] rfl
    · refine hproper.release ?_
      rw [released_append, released_map_use, List.append_nil]
      exact h.departed.not_mem hc
    · have hne : p ≠ c := by
        have hnd := h.nodup
        rw [hcalled.left, List.nodup_append] at hnd
        exact (hnd.2.2 c hatt p hp).symm
      exact (List.mem_erase_of_ne hne).mpr (hcalled.registered p (List.mem_cons_of_mem c hp))

/-! ### What the callbacks do -/

theorem advance_other {a : Action} (h : ¬ b.Own a) {gone : List Ptr}
    (hgone : newlyDeleted b.server t = gone) : b.advance a t =
      { b with
        server := t
        others := b.others ++ gone
        log := b.log ++ gone.map .release } := by
  unfold advance
  rw [if_neg h, hgone]

theorem advance_quiet {a : Action} (h : ¬ b.Own a) (hgone : newlyDeleted b.server t = []) :
    b.advance a t = { b with server := t } := by
  rw [advance_other h hgone, List.map_nil, List.append_nil, List.append_nil]

/-- A step inside of a callback of the broadcast that deletes none of the connections left. -/
theorem Inv.inside (h : Inv b) {a : Action} (hown : ¬ b.Own a) (inner : List Frame)
    {base : List Frame} {f : Frame} {data : Bytes} {rest : List Ptr} (gone : List Ptr)
    (hcalled : b.Called f data rest) (hdepth : base.length = b.depth)
    (hstack : t.stack = inner ++ f :: base) (hlive : Live t)
    (hgone : newlyDeleted b.server t = gone) (hproper : Proper (b.log ++ gone.map .release))
    (hdep : Departed (released b.log ++ gone) t)
    (hreg : ∀ p ∈ f.connections, p ∈ t.mConnections.mContainer) : Inv (b.advance a t) := by
  rw [advance_other hown hgone]
  refine ⟨hlive, h.nodup, hproper, ?_, .calls inner base f data rest hstack hdepth
    ⟨hcalled.frame, hcalled.left, hreg⟩⟩
  show Departed (released (b.log ++ gone.map .release)) t
  rw [released_append, released_map_release]
  exact hdep

/-- The same for a step that deletes nothing. -/
theorem Inv.quiet (h : Inv b) {a : Action} (hown : ¬ b.Own a) (inner : List Frame)
    {base : List Frame} {f : Frame} {data : Bytes} {rest : List Ptr}
    (hcalled : b.Called f data rest) (hdepth : base.length = b.depth)
    (hstack : t.stack = inner ++ f :: base) (hlive : Live t)
    (hgone : newlyDeleted b.server t = []) (hdep : Departed (released b.log) t)
    (hreg : ∀ p ∈ b.server.mConnections.mContainer, p ∈ t.mConnections.mContainer) :
    Inv (b.advance a t) := by
  refine h.inside hown inner [] hcalled hdepth hstack hlive hgone ?_ ?_ fun p hp =>
    hreg p (hcalled.registered p hp)
  · rw [List.map_nil, List.append_nil]
    exact h.proper
  · rw [List.append_nil]
    exact hdep

theorem Inv.callsInside (h : Inv b) {c : Call} (hc : c ≠ .shutdown) {inner base : List Frame}
    {f : Frame} {data : Bytes} {rest : List Ptr} (hcalled : b.Called f data rest)
    (hdepth : base.length = b.depth) (hstack : b.server.stack = inner ++ f :: base)
    (hfresh : Call.Fresh b.server c) (ht : t = b.server.call c) : Inv (b.advance (.call c) t) := by
  have hlive : Live t := ht ▸ h.live.call hfresh
  have hown : ¬ b.Own (.call c) := fun hno => hno
  have haside : Aside b.server t → Inv (b.advance (.call c) t) := by
    rintro ⟨targets, sending, rfl⟩
    exact h.quiet hown inner hcalled hdepth hstack hlive (newlyDeleted_of_eq rfl) h.departed
      fun _ hp => hp
  cases c with
  | send data identifier => exact haside (ht ▸ aside_send b.server data identifier)
  | broadcast data => exact haside (ht ▸ aside_broadcast b.server data)
  | shutdown => exact absurd rfl hc
  | addConnection mSocket hEvent identifier =>
    subst ht
    exact h.quiet hown inner hcalled hdepth hstack hlive (newlyDeleted_of_eq rfl)
      (h.departed.enrollNew mSocket hEvent identifier) fun _ hp => List.mem_append_left _ hp

/-- A callback of the broadcast comes to undefined behaviour, which ends the run. -/
theorem Inv.crashInside (h : Inv b) {a : Action} (hown : ¬ b.Own a) (inner : List Frame)
    {base : List Frame} {f : Frame} {data : Bytes} {rest : List Ptr}
    (hcalled : b.Called f data rest) (hdepth : base.length = b.depth) {u : Server} (hlive : Live u)
    (hstack : u.stack = inner ++ f :: base) (htrace : u.trace = b.server.trace)
    (hdep : Departed (released b.log) u) (hconn : u.mConnections = b.server.mConnections) :
    Inv (b.advance a u.crash) :=
  h.quiet hown inner hcalled hdepth hstack hlive.crash (newlyDeleted_of_eq htrace) hdep
    fun _ hp => hconn ▸ hp

/-- A `WSASend` of a callback; as there is a callback, a failure removes nothing yet. -/
theorem Inv.wsaSendInside (h : Inv b) {result : Started} {e : Sending} {inner base : List Frame}
    {f : Frame} {data : Bytes} {rest : List Ptr} (hcalled : b.Called f data rest)
    (hdepth : base.length = b.depth) (hstack : b.server.stack = inner ++ f :: base)
    (ht : t = b.server.use e.connection (b.server.wsaSend e result)) :
    Inv (b.advance (.wsaSend result) t) := by
  have hlen : b.server.stack.length = inner.length + (b.depth + 1) := by
    rw [hstack, List.length_append, List.length_cons, hdepth]
  have hown : ¬ b.Own (.wsaSend result) := by
    unfold Own
    omega
  by_cases hp : e.connection ∈ b.server.mConnections.mContainer
  swap
  · rw [ht, use_deleted hp]
    exact h.crashInside hown inner hcalled hdepth h.live hstack rfl h.departed rfl
  rw [use_mem hp] at ht
  have hlive : Live t := ht ▸ h.live.wsaSend e result
  have hcb : b.server.mCallback = true := h.live.heard (by
    rw [hstack]
    simp)
  cases result with
  | pending =>
    have haside : Aside (b.server.start e) t := ht ▸ aside_back (b.server.start e) e.caller
    obtain ⟨targets, sending, rfl⟩ := haside
    exact h.quiet hown inner hcalled hdepth hstack hlive (newlyDeleted_nil rfl rfl) h.departed
      fun _ hp => hp
  | immediate =>
    have ht' : t = (b.server.start e).invoke (.sendComplete b.server.nextSend
        (b.server.heap e.connection).mIdentifier e.data.length) (.sendComplete e.caller) := by
      rw [ht]
      exact if_pos hcb
    subst ht'
    exact h.quiet hown (.sendComplete e.caller :: inner) hcalled hdepth
      (congrArg (_ :: ·) hstack) hlive (newlyDeleted_nil (List.append_assoc _ _ _) rfl) h.departed
      fun _ hp => hp
  | failed error =>
    have ht' : t = ((b.server.issue e).record [.failed e.connection]).invoke
        (.sendFailed b.server.nextSend (b.server.heap e.connection).mIdentifier
          (sendError (b.server.heap e.connection).mSocket error))
        (.sendFailed e.connection e.caller) := by
      rw [ht]
      exact if_pos hcb
    subst ht'
    exact h.quiet hown (.sendFailed e.connection e.caller :: inner) hcalled hdepth
      (congrArg (_ :: ·) hstack) hlive
      (newlyDeleted_nil ((congrArg (· ++ _) (List.append_assoc _ _ _)).trans
        (List.append_assoc _ _ _)) rfl) h.departed fun _ hp => hp

theorem frame_of_stack (inner : List Frame) {base : List Frame} {f : Frame}
    (hdepth : base.length = b.depth) (hstack : b.server.stack = inner ++ f :: base) :
    b.frame = some f := by
  unfold frame
  rw [hstack, ← hdepth, List.reverse_append, List.reverse_cons, List.append_assoc,
    List.getElem?_append_right (by rw [List.length_reverse])]
  simp

/-- **A callback of a callback returns**; the removal behind a failed send spares the broadcast. -/
theorem Inv.returnsInside (h : Inv b) {wsaRecv : Started} {g f : Frame} {inner base : List Frame}
    {data : Bytes} {rest : List Ptr} (hcalled : b.Called f data rest)
    (hdepth : base.length = b.depth) (hstack : b.server.stack = g :: (inner ++ f :: base))
    (hspares : b.Spares (.returns wsaRecv))
    (ht : t = { b.server with stack := inner ++ f :: base }.resume wsaRecv g) :
    Inv (b.advance (.returns wsaRecv) t) := by
  have hlen : b.server.stack.length = inner.length + (b.depth + 1) + 1 := by
    rw [hstack, List.length_cons, List.length_append, List.length_cons, hdepth]
  have hown : ¬ b.Own (.returns wsaRecv) := by
    unfold Own
    omega
  have hpop : Live { b.server with stack := inner ++ f :: base } := h.live.pop hstack
  have hlive : Live t := ht ▸ hpop.resume wsaRecv g
  have hsend : g.OfSend := by
    have hnested := h.live.nested
    rw [hstack] at hnested
    exact hnested.1 (by simp)
  cases g with
  | receiveComplete p => cases hsend
  | disconnected p handleId => cases hsend
  | completion => cases hsend
  | sendComplete caller =>
    have haside : Aside { b.server with stack := inner ++ f :: base } t :=
      ht ▸ aside_back { b.server with stack := inner ++ f :: base } caller
    obtain ⟨targets, sending, rfl⟩ := haside
    exact h.quiet hown inner hcalled hdepth rfl hlive (newlyDeleted_of_eq rfl) h.departed
      fun _ hp => hp
  | sendFailed c caller =>
    unfold Spares at hspares
    simp only [hstack] at hspares
    have hne : (inner ++ f :: base).length ≠ b.depth := by
      rw [List.length_append, List.length_cons, hdepth]
      omega
    by_cases hc : c ∈ b.server.mConnections.mContainer
    swap
    · have hcrash : t = { b.server with stack := inner ++ f :: base }.crash :=
        ht.trans (use_deleted (s := { b.server with stack := inner ++ f :: base }) hc _)
      rw [hcrash]
      exact h.crashInside hown inner hcalled hdepth hpop rfl rfl h.departed rfl
    have haside : Aside ({ b.server with stack := inner ++ f :: base }.removeServerConnectionById
        (b.server.heap c).mIdentifier) t := by
      rw [ht]
      simp only [Server.resume]
      rw [use_mem (s := { b.server with stack := inner ++ f :: base }) hc]
      exact aside_back _ caller
    obtain ⟨targets, sending, rfl⟩ := haside
    have hframe : b.frame = some f := frame_of_stack (.sendFailed c caller :: inner) hdepth
      hstack
    rcases removeServerConnectionById_cases hpop.sound (b.server.heap c).mIdentifier with
      ⟨-, he⟩ | ⟨p, hp, he⟩
    · simp only [he] at hlive ⊢
      exact h.quiet hown inner hcalled hdepth rfl hlive (newlyDeleted_of_eq rfl) h.departed
        fun _ hp => hp
    · simp only [he] at hlive ⊢
      have hmem : p ∈ b.server.mConnections.mContainer := (hpop.sound.mapped _ p hp).1
      have hspared : p ∉ f.connections := hspares.2 hne p hp f hframe
      have hdep : Departed (released b.log) { b.server with stack := inner ++ f :: base } :=
        h.departed
      refine h.inside hown inner [p] hcalled hdepth rfl hlive
        (newlyDeleted_of_trace [.deleted p, .closed (b.server.heap p).mSocket] rfl)
        (h.proper.release (h.departed.not_mem hmem))
        (hdep.drop hpop hmem) fun q hq => ?_
      have hqp : q ≠ p := fun he => hspared (he ▸ hq)
      exact (List.mem_erase_of_ne hqp).mpr (hcalled.registered q hq)

/-- **An exception leaves a callback**: it goes to the user code that has made the send, and of a
callback of the broadcast itself to the caller of the broadcast. -/
theorem Inv.throws (h : Inv b) {what : String} {g f : Frame} {inner base stack : List Frame}
    {data : Bytes} {rest : List Ptr} (hsending : b.server.sending = none)
    (hcalled : b.Called f data rest) (hdepth : base.length = b.depth)
    (hstack : b.server.stack = inner ++ f :: base) (hcons : b.server.stack = g :: stack)
    (hspares : b.Spares (.throws what))
    (ht : t = { b.server with stack := stack }.unwind what g) :
    Inv (b.advance (.throws what) t) := by
  have hown : ¬ b.Own (.throws what) := fun hno => hno
  have hpop : Live { b.server with stack := stack } := h.live.pop hcons
  cases inner with
  | nil =>
    rw [hcons, List.nil_append] at hstack
    obtain ⟨rfl, rfl⟩ := List.cons.inj hstack
    have hlen : b.server.stack.length = b.depth + 1 := by
      rw [hcons, List.length_cons, hdepth]
    have hlast := hspares hlen g (frame_of_stack [] hdepth hcons)
    rcases hcalled.frame with ⟨rfl, hremoved⟩ | ⟨c, -, rfl, -⟩
    · have hrest : rest = [] := hlast
      have ht' : t = { b.server with stack := stack } := ht
      have hleft : b.registered = b.attempted := by
        rw [hcalled.left, hrest, List.append_nil]
      rw [advance_quiet hown (newlyDeleted_of_eq (by rw [ht'])), ht']
      exact ⟨hpop, h.nodup, h.proper, h.departed, .over hsending hdepth hleft hremoved⟩
    · cases hlast
  | cons k inner =>
    rw [hcons, List.cons_append] at hstack
    obtain ⟨rfl, rfl⟩ := List.cons.inj hstack
    have hsend : g.OfSend := by
      have hnested := h.live.nested
      rw [hcons] at hnested
      exact hnested.1 (by simp)
    have ht' : t = { b.server with stack := inner ++ f :: base } := by
      cases g with
      | receiveComplete p => cases hsend
      | disconnected p handleId => cases hsend
      | completion => cases hsend
      | sendComplete caller => exact ht
      | sendFailed c caller => exact ht
    subst ht'
    exact h.quiet hown inner hcalled hdepth rfl hpop (newlyDeleted_of_eq rfl) h.departed
      fun _ hp => hp

/-- What the system does besides. -/
theorem Inv.system (h : Inv b) {a : Action} (hown : ¬ b.Own a) (hlive : Live t)
    (hsending : t.sending = b.server.sending) (hstack : t.stack = b.server.stack)
    (hconn : t.mConnections = b.server.mConnections) (hptr : t.nextPtr = b.server.nextPtr)
    (hinf : t.informing = b.server.informing) (htrace : t.trace = b.server.trace) :
    Inv (b.advance a t) := by
  rw [advance_quiet hown (newlyDeleted_of_eq htrace)]
  refine ⟨hlive, h.nodup, h.proper, ?_, ?_⟩
  · refine h.departed.same hptr.ge ?_
    unfold alive
    rw [hconn, hinf]
  · rcases h.place with ⟨e, data, rest, hs, hdepth, hcaller, hleft, hremoved, hreg⟩ |
      ⟨inner, base, f, data, rest, hst, hdepth, hcalled⟩ | ⟨hs, hdepth, hleft, hremoved⟩
    · refine .sends e data rest (hsending.trans hs) ?_ hcaller hleft hremoved fun p hp => ?_
      · show t.stack.length = b.depth
        rw [hstack, hdepth]
      · show p ∈ t.mConnections.mContainer
        rw [hconn]
        exact hreg p hp
    · refine .calls inner base f data rest (hstack.trans hst) hdepth
        ⟨hcalled.frame, hcalled.left, fun p hp => ?_⟩
      show p ∈ t.mConnections.mContainer
      rw [hconn]
      exact hcalled.registered p hp
    · refine .over (hsending.trans hs) ?_ hleft hremoved
      show t.stack.length = b.depth
      rw [hstack, hdepth]

/-! ### Runs -/

theorem step_cases {b' : Broadcasting} {a : Action} (h : b.step a = some b') :
    ¬ b.Over ∧ ∃ t, b.server.step a = some t ∧ b' = b.advance a t := by
  unfold step at h
  split_ifs at h with hover
  obtain ⟨t, ht, rfl⟩ := Option.map_eq_some_iff.mp h
  exact ⟨hover, t, ht, rfl⟩

/-- While the broadcast runs, the loop does not. -/
theorem Inv.not_alone (h : Inv b) (hover : ¬ b.Over) : ¬ b.server.Alone := by
  rintro ⟨hsending, hstack⟩
  rcases h.place with ⟨e, -, -, hs, -, -, -, -, -⟩ | ⟨inner, base, f, -, -, hst, -, -⟩ |
    ⟨hs, hdepth, -, -⟩
  · rw [hsending] at hs
    cases hs
  · rw [hstack] at hst
    exact absurd hst (by simp)
  · exact hover ⟨hs, hdepth⟩

/-- **A step that meets the condition.** -/
theorem inv_step {b' : Broadcasting} {a : Action} (h : Inv b) (hspares : b.Spares a)
    (hshut : a ≠ .call .shutdown) (hs : b.step a = some b') : Inv b' := by
  obtain ⟨hover, t, ht, rfl⟩ := step_cases hs
  have hbusy := h.not_alone hover
  cases a with
  | receives p =>
    obtain ⟨-, rfl⟩ := step_receives ht
    exact h.system (fun hno => hno) { h.live with } rfl rfl rfl rfl rfl rfl
  | connects =>
    obtain ⟨sckt, -, rfl⟩ := step_connects ht
    exact h.system (fun hno => hno) { h.live with } rfl rfl rfl rfl rfl rfl
  | wait => exact absurd (step_wait ht).1 hbusy
  | ioCompletion => exact absurd (step_ioCompletion ht).1 hbusy
  | waitFailed error => exact absurd (step_waitFailed ht).1 hbusy
  | signaled i result wsaRecv accept =>
    obtain ⟨handles, handleId, -, -, halone, -⟩ := step_signaled ht
    exact absurd halone hbusy
  | dataSentToClient number cbTransferred => exact absurd (step_dataSentToClient ht).2.1 hbusy
  | registers p identifier =>
    exact absurd (step_registers ht).2.1 hbusy
  | call c =>
    obtain ⟨hrunning, hfresh, ht⟩ := step_call ht
    rcases h.place with ⟨e, -, -, hsend, -, -, -, -, -⟩ |
      ⟨inner, base, f, data, rest, hstack, hdepth, hcalled⟩ | ⟨hsend, hdepth, -, -⟩
    · rw [hrunning.1] at hsend
      cases hsend
    · exact h.callsInside (fun hc => hshut (congrArg Action.call hc)) hcalled hdepth hstack hfresh
        ht
    · exact absurd ⟨hsend, hdepth⟩ hover
  | wsaSend result =>
    obtain ⟨e, he, ht⟩ := step_wsaSend ht
    rcases h.place with ⟨e', data, rest, hsend, hdepth, hcaller, hleft, hremoved, hreg⟩ |
      ⟨inner, base, f, data, rest, hstack, hdepth, hcalled⟩ | ⟨hsend, hdepth, -, -⟩
    · obtain rfl := Option.some.inj (he.symm.trans hsend)
      rw [use_mem (hreg e.connection List.mem_cons_self)] at ht
      exact h.wsaSend hsend hdepth hcaller hleft hremoved hreg hspares ht
    · exact h.wsaSendInside hcalled hdepth hstack ht
    · exact absurd ⟨hsend, hdepth⟩ hover
  | returns wsaRecv =>
    obtain ⟨hnone, g, stack, hcons, ht⟩ := step_returns ht
    rcases h.place with ⟨e, -, -, hsend, -, -, -, -, -⟩ |
      ⟨inner, base, f, data, rest, hstack, hdepth, hcalled⟩ | ⟨hsend, hdepth, -, -⟩
    · rw [hnone] at hsend
      cases hsend
    · cases inner with
      | nil =>
        rw [hcons, List.nil_append] at hstack
        obtain ⟨rfl, rfl⟩ := List.cons.inj hstack
        exact h.returnsOwn hnone hcons hdepth hcalled hspares ht
      | cons k inner =>
        rw [hcons, List.cons_append] at hstack
        obtain ⟨rfl, rfl⟩ := List.cons.inj hstack
        exact h.returnsInside hcalled hdepth hcons hspares ht
    · exact absurd ⟨hsend, hdepth⟩ hover
  | throws what =>
    obtain ⟨hnone, g, stack, hcons, ht⟩ := step_throws ht
    rcases h.place with ⟨e, -, -, hsend, -, -, -, -, -⟩ |
      ⟨inner, base, f, data, rest, hstack, hdepth, hcalled⟩ | ⟨hsend, hdepth, -, -⟩
    · rw [hnone] at hsend
      cases hsend
    · exact h.throws hnone hcalled hdepth hstack hcons hspares ht
    · exact absurd ⟨hsend, hdepth⟩ hover

/-- At the end everything has been attempted, and what failed removed. -/
theorem Inv.over (h : Inv b) (hover : b.Over) :
    b.registered = b.attempted ∧ b.removed = b.failed := by
  rcases h.place with ⟨e, -, -, hs, -, -, -, -, -⟩ | ⟨inner, base, f, -, -, hstack, hdepth, -⟩ |
    ⟨-, -, hleft, hremoved⟩
  · rw [hover.1] at hs
    cases hs
  · have hlen := hover.2
    rw [hstack, List.length_append, List.length_cons] at hlen
    omega
  · exact ⟨hleft, hremoved⟩

theorem Inv.right (h : Inv b) : Right b where
  attempts hover p hp := by
    obtain ⟨hleft, -⟩ := h.over hover
    exact Or.inl (hleft ▸ List.count_eq_one_of_mem h.nodup hp)
  proper := h.proper
  removals hover p _ := by rw [(h.over hover).2]

instance (f : Frame) : Decidable (Last f) :=
  match f with
  | .sendComplete caller => inferInstanceAs (Decidable (caller.rest = []))
  | .receiveComplete _ | .disconnected _ _ | .completion | .sendFailed _ _ => instDecidableFalse

instance (b : Broadcasting) (a : Action) : Decidable (b.Spares a) := by
  delta Spares
  exact match a with
    | .wsaSend (.failed _) => by dsimp only; infer_instance
    | .returns _ =>
      match b.server.stack with
      | .sendFailed connection _ :: stack => by dsimp only; infer_instance
      | [] | .receiveComplete _ :: _ | .disconnected _ _ :: _ | .completion :: _
      | .sendComplete _ :: _ => instDecidableTrue
    | .throws _ => by dsimp only; infer_instance
    | .call _ | .wsaSend .pending | .wsaSend .immediate | .wait | .ioCompletion | .waitFailed _
    | .signaled _ _ _ _ | .dataSentToClient _ _ | .registers _ _ | .receives _
    | .connects => instDecidableTrue

/-- Two clients are registered. -/
def twoClients (identifier : Bytes) : List Action :=
  [.call (.addConnection 5 7 [97]), .call (.addConnection 6 8 identifier)]

end Broadcasting

end C11Http.Windows
