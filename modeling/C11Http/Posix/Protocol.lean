import C11Http.Lib.Conversation
import C11Http.Posix.Provenance
import C11Http.Posix.Trace

/-! # What the callback is told of one connection

Of every connection object the callback is told, in this order: `connected`, then any number of
`receiveComplete` and `sendComplete`, then `disconnected`, once, and nothing more; always under the
identifier of the connection (`polite_always`). This holds in every run, whatever the callbacks do
and throw, as long as the connection that is removed is the last of the vector.

The invariant `Speaking` says that of a registered connection the conversation is open, unless an
exception has left the loop. -/

namespace C11Http.Posix

open C11Http.Lib C11Http.Lib.Run Connections

/-- What the callback is told of a connection, and under which identifier. -/
def notice (p : Ptr) : Event → Option (Bytes × Turn)
  | .connected q identifier => if q = p then some (identifier, .opening) else none
  | .receiveComplete q identifier _ => if q = p then some (identifier, .message) else none
  | .sendComplete q identifier _ => if q = p then some (identifier, .message) else none
  | .disconnected q identifier => if q = p then some (identifier, .closing) else none
  | _ => none

namespace Server

def notices (s : Server) (p : Ptr) : List (Bytes × Turn) := s.trace.filterMap (notice p)

/-- **The callback is told of a connection in order**, and under its identifier. -/
def Polite (s : Server) (p : Ptr) : Prop :=
  Turn.Conversation ((s.notices p).map Prod.snd) ∧
    ∀ n ∈ s.notices p, n.1 = (s.heap p).mIdentifier

variable {s t : Server} {p : Ptr}

theorem notice_ofLoop (p : Ptr) : ∀ e, ofLoop e = false → notice p e = none := by
  intro e he
  cases e <;> first | rfl | cases he

/-! ### The notices of a branch -/

theorem notice_removed (p : Ptr) (s : Server) (sckt : Fd) :
    (s.removed sckt).filterMap (notice p) = [] := by
  unfold removed
  split <;> rfl

theorem notice_attempted (p : Ptr) (hcb : s.mCallback = true) (a : Attempt) :
    (s.attempted a).filterMap (notice p) =
      match a.construct with
      | .error _ => []
      | .ok client => if s.nextPtr = p then [(client.mIdentifier, .opening)] else [] := by
  have hevents : a.events.filterMap (notice p) = [] :=
    filterMap_events a (fun _ => rfl) (fun _ _ => rfl) (fun _ _ => rfl)
  unfold attempted
  rw [List.filterMap_append, hevents, List.nil_append]
  cases a.construct with
  | error what => rfl
  | ok client =>
    by_cases hp : s.nextPtr = p
    · simp [notice, hcb, hp]
    · simp [notice, hcb, hp]

/-- The receive of a connection fails, or its `receiveComplete` does. -/
def Reading.Fails (e : Reading) : Prop :=
  e.recv.data = [] ∨ e.receiveComplete.outcome = .runtimeError

instance (e : Reading) : Decidable (Reading.Fails e) := by
  unfold Reading.Fails; infer_instance

theorem notice_dropped (p : Ptr) (hcb : s.mCallback = true) (sckt : Fd) (q : Ptr)
    (r : Reaction Call) :
    (s.dropped sckt q r).filterMap (notice p) =
      if q = p then [((s.heap p).mIdentifier, .closing)] else [] := by
  have hrest : (if r.outcome = .returns then s.removed sckt else []).filterMap (notice p) = [] := by
    split_ifs
    · exact notice_removed p s sckt
    · rfl
  unfold dropped
  rw [if_pos hcb, List.filterMap_cons, hrest]
  by_cases hqp : q = p
  · simp [notice, hqp]
  · simp [notice, hqp]

/-- The notices of a receive. -/
theorem notice_handled (p : Ptr) (hcb : s.mCallback = true) (i : Fd) (e : Reading) :
    (s.handled i e).filterMap (notice p) =
      if s.mConnections.getServerConnection s.heap i = some p then
        (if e.recv.data = [] then [] else [((s.heap p).mIdentifier, .message)]) ++
          if Reading.Fails e then [((s.heap p).mIdentifier, .closing)] else []
      else [] := by
  unfold handled Reading.Fails
  cases hq : s.mConnections.getServerConnection s.heap i with
  | none => rfl
  | some q =>
    have hdropped := notice_dropped p hcb i q e.disconnected
    by_cases hdata : e.recv.data = []
    · simp only [hdata, if_true, true_or, List.nil_append, Option.some.injEq]
      rw [List.filterMap_cons]
      exact hdropped
    · simp only [hdata, if_false, false_or, hcb, if_true, Option.some.injEq]
      rw [List.filterMap_cons, List.filterMap_cons]
      by_cases hqp : q = p
      · subst hqp
        by_cases ho : e.receiveComplete.outcome = .runtimeError
        · simp [notice, ho, hdropped]
        · simp [notice, ho]
      · by_cases ho : e.receiveComplete.outcome = .runtimeError
        · simp [notice, hqp, ho, hdropped]
        · simp [notice, hqp, ho]

/-- The notices of a write. -/
theorem notice_written (p : Ptr) (s : Server) (i : Fd) (e : Writing) :
    ∃ n, (s.written i e).filterMap (notice p) =
        List.replicate n ((s.heap p).mIdentifier, .message) ∧
      (s.mConnections.getServerConnection s.heap i ≠ some p → n = 0) := by
  unfold written
  cases hq : s.mConnections.getServerConnection s.heap i with
  | none => exact ⟨0, rfl, fun _ => rfl⟩
  | some q =>
    cases hc : ((s.heap q).sendQueuedMessage e.result).2.2 with
    | none => exact ⟨0, by simp [hc, notice], fun _ => rfl⟩
    | some count =>
      by_cases hcb : s.mCallback = true
      · by_cases hqp : q = p
        · subst hqp
          exact ⟨1, by simp [hc, hcb, List.filterMap_cons, notice], fun hne => absurd rfl hne⟩
        · exact ⟨0, by simp [hc, hcb, hqp, notice], fun _ => rfl⟩
      · exact ⟨0, by simp [hc, hcb, notice], fun _ => rfl⟩

/-! ### Where a connection ends -/

theorem removeServerConnection_gone (hs : s.Live) (hp : p ∈ s.mConnections.mContainer) :
    p ∉ (s.removeServerConnection (s.heap p).mSocket).mConnections.mContainer := by
  obtain ⟨xs, ys, hc⟩ := List.append_of_mem hp
  obtain ⟨victim, hv⟩ : ∃ v, s.mConnections.mContainer.getLast? = some v :=
    ⟨_, List.getLast?_eq_some_getLast (List.ne_nil_of_mem hp)⟩
  obtain ⟨hxs, hys⟩ := hs.distinct.split hc
  rw [removeServerConnection_mConnections, Connections.removeServerConnection_mem hs.distinct hc hv]
  intro hmem
  rcases List.mem_append.mp hmem with hmem | hmem
  · exact hxs p hmem rfl
  · exact hys p hmem rfl

/-- A connection that is dropped is no longer registered, or the loop has been left. -/
theorem dropConnection_gone (hs : s.Live) (hcb : s.mCallback = true)
    (hp : p ∈ s.mConnections.mContainer) (r : Reaction Call) :
    p ∈ (s.dropConnection (s.heap p).mSocket p r).mConnections.mContainer →
      (s.dropConnection (s.heap p).mSocket p r).pc = .halted := by
  have hf := framed_disconnect s p r
  apply dropConnection_rule (P := fun t => p ∈ t.mConnections.mContainer → t.pc = .halted)
  case silent => exact fun hnull => absurd (hnull.symm.trans hcb) Bool.false_ne_true
  case reported =>
    intro _ _ hmem
    have hp' : p ∈ (s.disconnect p r).mConnections.mContainer := by
      rw [hf.mConnections]
      exact hp
    have hgone := removeServerConnection_gone (hs.framed hf) hp'
    rw [hf.mSocket p (hs.fresh p (Or.inl hp))] at hgone
    exact absurd hmem hgone
  case escaped => exact fun _ _ _ => rfl

theorem handleServerConnection_gone (hs : s.Live) (hcb : s.mCallback = true) {i : Fd} {e : Reading}
    (hp : s.mConnections.getServerConnection s.heap i = some p) (hfails : Reading.Fails e) :
    p ∈ (s.handleServerConnection i e).mConnections.mContainer →
      (s.handleServerConnection i e).pc = .halted := by
  obtain ⟨hmem, rfl⟩ := getServerConnection_some hp
  have hsame : ∀ q, s.mConnections.getServerConnection s.heap (s.heap p).mSocket = some q →
      q = p := fun q hq => Option.some.inj (hq.symm.trans hp)
  have hlt := hs.fresh p (Or.inl hmem)
  have hrecv := framed_receiving s p e.recv
  have hdeliver : ∀ data, Framed s ((s.receiving p e.recv).deliver p data e.receiveComplete) :=
    fun data => hrecv.trans hs.fresh (framed_deliver _ p data _)
  -- what is dropped behind a receive, and behind a delivery
  have hdrop : ∀ u, Framed s u →
      p ∈ (u.dropConnection (s.heap p).mSocket p e.disconnected).mConnections.mContainer →
        (u.dropConnection (s.heap p).mSocket p e.disconnected).pc = .halted := by
    intro u hu
    have hp' : p ∈ u.mConnections.mContainer := by
      rw [hu.mConnections]
      exact hmem
    have hgone := dropConnection_gone (hs.framed hu) (hu.mCallback.trans hcb) hp' e.disconnected
    rwa [hu.mSocket p hlt] at hgone
  apply handleServerConnection_rule (P := fun t => p ∈ t.mConnections.mContainer → t.pc = .halted)
  case unknown =>
    intro hnone
    rw [hp] at hnone
    cases hnone
  case failed =>
    intro q what hq _
    obtain rfl := hsame q hq
    exact hdrop _ hrecv
  case silent => exact fun _ _ _ _ hnull => absurd (hnull.symm.trans hcb) Bool.false_ne_true
  case delivered =>
    intro q data _ hr _ ho
    obtain ⟨rfl, hne⟩ := ServerConnection.performReceive_ok hr
    rcases hfails with hnil | hthrew
    · exact absurd hnil hne
    · rw [ho] at hthrew
      cases hthrew
  case thrown =>
    intro q data hq _ _ _
    obtain rfl := hsame q hq
    exact hdrop _ (hdeliver data)
  case escaped => exact fun _ _ _ _ _ _ _ => rfl

/-! ### A step -/

theorem notices_step {a : Action} (p : Ptr) (h : s.step a = some t) :
    t.notices p = s.notices p ++ (s.happened a).filterMap (notice p) :=
  filterMap_step (notice_ofLoop p) h

/-- **Of a registered connection** a step tells messages, and then perhaps that it is disconnected;
in that case it is no longer registered or the loop has been left. -/
theorem happened_of_mem {a : Action} (hs : s.Live) (hcb : s.mCallback = true)
    (hp : p ∈ s.mConnections.mContainer) (h : s.step a = some t) :
    ∃ n, (s.happened a).filterMap (notice p) =
        List.replicate n ((s.heap p).mIdentifier, .message) ∨
      (s.happened a).filterMap (notice p) =
          List.replicate n ((s.heap p).mIdentifier, .message) ++
            [((s.heap p).mIdentifier, .closing)] ∧
        (p ∈ t.mConnections.mContainer → t.pc = .halted) := by
  obtain ⟨hnil, -⟩ | ⟨attempt, connected, e, pc, -, -, hap, -⟩ |
    ⟨attempt, connected, e, i, pc, -, hap, rfl⟩ | ⟨e, i, pc, -, -, hap, -⟩ := happened_cases h
  · exact ⟨0, Or.inl (by rw [hnil]; rfl)⟩
  · have hne : s.nextPtr ≠ p := (hs.fresh p (Or.inl hp)).ne'
    refine ⟨0, Or.inl ?_⟩
    rw [hap, notice_attempted p hcb]
    split
    · rfl
    · exact if_neg hne
  · rw [hap, notice_handled p hcb]
    by_cases hq : s.mConnections.getServerConnection s.heap i = some p
    · rw [if_pos hq]
      have hmessage : ∃ n, (if e.recv.data = [] then [] else
          [((s.heap p).mIdentifier, Turn.message)]) =
            List.replicate n ((s.heap p).mIdentifier, Turn.message) := by
        split_ifs
        · exact ⟨0, rfl⟩
        · exact ⟨1, rfl⟩
      obtain ⟨n, hn⟩ := hmessage
      rw [hn]
      by_cases hfails : Reading.Fails e
      · rw [if_pos hfails]
        refine ⟨n, Or.inr ⟨rfl, fun hmem => ?_⟩⟩
        rw [goto_mConnections] at hmem
        have hhalted := handleServerConnection_gone hs hcb hq hfails hmem
        unfold goto
        rw [if_pos hhalted]
        exact hhalted
      · rw [if_neg hfails, List.append_nil]
        exact ⟨n, Or.inl rfl⟩
    · rw [if_neg hq]
      exact ⟨0, Or.inl rfl⟩
  · obtain ⟨n, hn, -⟩ := notice_written p s i e
    exact ⟨n, Or.inl (by rw [hap, hn])⟩

/-- Of an object that is not registered a step tells nothing, but for the one it makes. -/
theorem happened_of_notMem {a : Action} (hcb : s.mCallback = true)
    (hp : p ∉ s.mConnections.mContainer) (h : s.step a = some t) :
    (s.happened a).filterMap (notice p) = [] ∨
      p = s.nextPtr ∧ p < t.nextPtr ∧
        (s.happened a).filterMap (notice p) = [((t.heap p).mIdentifier, .opening)] := by
  obtain ⟨hnil, -⟩ | ⟨attempt, connected, e, pc, -, -, hap, rfl⟩ |
    ⟨attempt, connected, e, i, pc, -, hap, -⟩ | ⟨e, i, pc, -, -, hap, -⟩ := happened_cases h
  · exact Or.inl (by rw [hnil]; rfl)
  · rw [hap, notice_attempted p hcb]
    cases hc : attempt.construct with
    | error what => exact Or.inl rfl
    | ok client =>
      by_cases hq : s.nextPtr = p
      · subst hq
        obtain ⟨hlt, hid⟩ := acceptBranch_built (s := s) connected hc
        obtain ⟨-, -, hclient, -, -⟩ := Attempt.construct_ok hc
        refine Or.inr ⟨rfl, ?_, ?_⟩
        · rw [goto_nextPtr]
          exact hlt
        · rw [goto_heap, hid, ← hclient]
          exact if_pos rfl
      · exact Or.inl (if_neg hq)
  · rw [hap, notice_handled p hcb, if_neg fun hq => hp (getServerConnection_some hq).1]
    exact Or.inl rfl
  · obtain ⟨n, hn, hzero⟩ := notice_written p s i e
    rw [hap, hn, hzero fun hq => hp (getServerConnection_some hq).1]
    exact Or.inl rfl

/-- A connection that is registered behind a step was registered before, or has just been told
of. -/
theorem mem_of_step {a : Action} (hs : s.Live) (hcb : s.mCallback = true)
    (h : s.step a = some t) (hp : p ∈ t.mConnections.mContainer) :
    p ∈ s.mConnections.mContainer ∨
      p = s.nextPtr ∧
        (s.happened a).filterMap (notice p) = [((t.heap p).mIdentifier, .opening)] := by
  obtain ⟨-, hcon⟩ | ⟨attempt, connected, e, pc, -, -, hap, rfl⟩ |
    ⟨attempt, connected, e, i, pc, -, -, rfl⟩ | ⟨e, i, pc, -, hpc, -, rfl⟩ := happened_cases h
  · exact Or.inl (hcon ▸ hp)
  · rw [goto_mConnections] at hp
    have hgreet : ∀ client, (s.greeting attempt client connected).mConnections = s.mConnections :=
      fun client => (framed_greeting s hs.fresh attempt client connected).mConnections
    have hnew : p ∈ s.mConnections.mContainer ∨
        p = s.nextPtr ∧ ∃ client, attempt.construct = .ok client := by
      revert hp
      apply acceptBranch_rule (P := fun t => p ∈ t.mConnections.mContainer →
        p ∈ s.mConnections.mContainer ∨ p = s.nextPtr ∧ ∃ client, attempt.construct = .ok client)
      case rejected => exact fun _ _ hmem => Or.inl hmem
      case null => exact fun _ _ _ hmem => Or.inl hmem
      case registered =>
        intro client hc _ _ hmem
        rcases List.mem_append.mp hmem with hmem | hmem
        · exact Or.inl (hgreet client ▸ hmem)
        · exact Or.inr ⟨List.mem_singleton.mp hmem, client, hc⟩
      case swallowed => exact fun client _ _ _ hmem => Or.inl (hgreet client ▸ hmem)
      case escaped => exact fun client _ _ _ hmem => Or.inl (hgreet client ▸ hmem)
    obtain hmem | ⟨rfl, client, hc⟩ := hnew
    · exact Or.inl hmem
    · obtain ⟨-, hid⟩ := acceptBranch_built (s := s) connected hc
      obtain ⟨-, -, hclient, -, -⟩ := Attempt.construct_ok hc
      refine Or.inr ⟨rfl, ?_⟩
      rw [hap, notice_attempted s.nextPtr hcb, hc, goto_heap, hid, ← hclient]
      exact if_pos rfl
  · rw [goto_mConnections] at hp
    obtain hf | ⟨q, -, -, -, u, hu, heq⟩ := handleServerConnection_effect hs.fresh i e
    · exact Or.inl (hf.mConnections ▸ hp)
    · rw [heq, removeServerConnection_mConnections] at hp
      exact Or.inl (hu.mConnections ▸ removeServerConnection_subset.1 hp)
  · rw [goto_mConnections] at hp
    obtain hf | ⟨u, hu, heq⟩ := writeBranch_effect hs.fresh hpc i e
    · exact Or.inl (hf.mConnections ▸ hp)
    · rw [heq] at hp
      exact Or.inl (hu.mConnections ▸ hp)

/-- The conversations with the registered connections are open, and the callback has been told of
all connections in order. -/
structure Speaking (s : Server) : Prop where
  live : s.Live
  callback : s.mCallback = true
  unborn : ∀ p, s.nextPtr ≤ p → s.notices p = []
  registered : ∀ p ∈ s.mConnections.mContainer, s.pc ≠ .halted →
    Turn.Open ((s.notices p).map Prod.snd)
  polite : ∀ p, s.Polite p

theorem Speaking.start (setup : Setup) (hcb : setup.mCallback = true) :
    (waitForEvents setup).Speaking where
  live := Live.start setup
  callback := hcb
  unborn _ _ := rfl
  registered _ hp := by cases hp
  polite _ := ⟨Or.inl rfl, fun _ hn => by cases hn⟩

/-- **A step keeps the conversations in order** if it removes no connection but the last of the
vector. -/
theorem Speaking.step {a : Action} (hs : s.Speaking) (hlast : RemovesLast s a)
    (h : s.step a = some t) : t.Speaking := by
  have hadv := advanced_step hs.live.fresh h
  have hpc : s.pc ≠ .halted := fun hhalted => by
    cases a <;> simp [Server.step, hhalted] at h
  have hid : ∀ p < s.nextPtr, (t.heap p).mIdentifier = (s.heap p).mIdentifier := hadv.mIdentifier
  have hopen : ∀ p ∈ s.mConnections.mContainer, s.Polite p ∧
      Turn.Open ((s.notices p).map Prod.snd) := fun p hp => ⟨hs.polite p, hs.registered p hp hpc⟩
  refine ⟨live_step hs.live hlast h, (constant_step hs.live.fresh h).2.trans hs.callback,
    fun p hp => ?_, fun p hp hne => ?_, fun p => ?_⟩
  · have hle : s.nextPtr ≤ p := hadv.nextPtr.trans hp
    have hnot : p ∉ s.mConnections.mContainer :=
      fun hmem => (hs.live.fresh p (Or.inl hmem)).not_ge hle
    obtain hnil | ⟨-, hlt, -⟩ := happened_of_notMem hs.callback hnot h
    · rw [notices_step p h, hs.unborn p hle, hnil]
      rfl
    · exact absurd hp hlt.not_ge
  · rw [notices_step p h, List.map_append]
    obtain hmem | ⟨rfl, hnew⟩ := mem_of_step hs.live hs.callback h hp
    · obtain ⟨n, hn | ⟨-, hgone⟩⟩ := happened_of_mem hs.live hs.callback hmem h
      · rw [hn, List.map_replicate]
        exact (hopen p hmem).2.said n
      · exact absurd (hgone hp) hne
    · rw [hs.unborn _ le_rfl, hnew]
      exact Turn.open_singleton
  · unfold Polite
    rw [notices_step p h, List.map_append]
    by_cases hmem : p ∈ s.mConnections.mContainer
    · obtain ⟨hpolite, hopen'⟩ := hopen p hmem
      have hidp := hid p (hs.live.fresh p (Or.inl hmem))
      obtain ⟨n, hn | ⟨hn, -⟩⟩ := happened_of_mem hs.live hs.callback hmem h
      · rw [hn, List.map_replicate]
        refine ⟨(hopen'.said n).conversation, fun m hm => ?_⟩
        rcases List.mem_append.mp hm with hm | hm
        · rw [hidp]
          exact hpolite.2 m hm
        · rw [hidp, List.eq_of_mem_replicate hm]
      · rw [hn, List.map_append, List.map_replicate, ← List.append_assoc]
        refine ⟨(hopen'.said n).closed.conversation, fun m hm => ?_⟩
        rcases List.mem_append.mp hm with hm | hm
        · rw [hidp]
          exact hpolite.2 m hm
        · rw [hidp]
          rcases List.mem_append.mp hm with hm | hm
          · rw [List.eq_of_mem_replicate hm]
          · rw [List.mem_singleton.mp hm]
    · obtain hnil | ⟨rfl, -, hnew⟩ := happened_of_notMem hs.callback hmem h
      · rw [hnil, List.map_nil, List.append_nil, List.append_nil]
        refine ⟨(hs.polite p).1, fun m hm => ?_⟩
        have hlt : p < s.nextPtr := by
          by_contra hge
          rw [hs.unborn p (not_lt.mp hge)] at hm
          cases hm
        rw [hid p hlt]
        exact (hs.polite p).2 m hm
      · rw [hs.unborn _ le_rfl, hnew]
        refine ⟨Turn.open_singleton.conversation, fun m hm => ?_⟩
        rw [List.mem_singleton.mp hm]

/-- **Of every connection the callback is told in order**: `connected`, what is received and what is
sent, at last `disconnected`, and nothing more. -/
theorem polite_always (setup : Setup) (hcb : setup.mCallback = true) (as : List Action)
    (hlast : Along step RemovesLast (waitForEvents setup) as) :
    Always step (fun s => ∀ p, s.Polite p) (waitForEvents setup) as :=
  (always_of_along (P := Speaking) (fun _ _ _ hs hR h => hs.step hR h) (.start setup hcb)
    hlast).imp fun _ hs => hs.polite

/-- A client that is accepted and hangs up. -/
theorem polite_always_hangUp : ∃ t, run step (waitForEvents listening) (greet ++ hangUp) = some t ∧
    t.notices 0 = [([97], .opening), ([97], .closing)] ∧ ∀ p, t.Polite p := by
  obtain ⟨t, hrun, hnotices⟩ := exists_run step (waitForEvents listening) (greet ++ hangUp)
    (fun t => t.notices 0 = [([97], .opening), ([97], .closing)]) (by decide)
  exact ⟨t, hrun, hnotices, (polite_always listening rfl (greet ++ hangUp) (by decide)).last hrun⟩

end Server

end C11Http.Posix
