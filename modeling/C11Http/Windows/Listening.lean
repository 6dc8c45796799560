import C11Http.Windows.Client

/-! # The receives of the windows client

The first receive of the windows client is prepared in `connect`. The branch of `waitForEvents` for
its event delivers what it has taken and prepares no other, so the client hears one message.

`keepsReceiving_iff`: at the top of the loop a client that is connected has a receive outstanding or
completed, and what it has delivered, what is completed and what is unread are together all that has
arrived, in a whole run, if and only if the loop handles no receive that has completed with the
client still connected afterwards. -/

namespace C11Http.Windows.Client

open C11Http.Lib.Run

variable {s t : Client}

def payload : Event → Bytes
  | .receiveComplete _ data => data
  | _ => []

/-- What the callback has been given. -/
def delivered (s : Client) : Bytes := s.trace.flatMap payload

/-- What has been received and not delivered. -/
def inHand (s : Client) : Bytes := s.completed.flatMap fun result => result.getD []

/-- Nothing that has arrived is lost. -/
def Whole (s : Client) : Prop := s.delivered ++ s.inHand ++ s.unread = s.arrived

/-- **At the top of the loop a connected client has a receive** that is outstanding or has completed
and not been delivered, so that what follows on what it has delivered will be. -/
def KeepsReceiving (s : Client) : Prop := s.pc = .top → s.Alone → s.mConnected = true →
  0 < s.outstanding + s.completed.length ∧ (s.mCallback = true → s.Whole)

/-- The loop handles no completed receive of a client that stays connected. -/
def Listens (s : Client) : Action → Prop
  | .signaled .receive => s.mConnected = true → s.completed = [] ∨
      s.mCallback = true ∧ ∃ data rest, s.completed = some data :: rest
  | .returns => s.stack.head? = some .received → s.mConnected = false
  | _ => True

/-- Callbacks inside one another: only the first is not of a send. -/
def Nested : List Frame → Prop
  | [] => True
  | f :: stack => (stack ≠ [] → f = .sending) ∧ Nested stack

/-- The client has one receive until the loop has handled it. -/
structure Posted (s : Client) : Prop where
  atMost : s.outstanding + s.completed.length ≤ 1
  preparing : s.pc = .preparing → s.outstanding + s.completed.length = 0
  handling : .received ∈ s.stack → s.pc = .top ∧ s.outstanding + s.completed.length = 0
  armed : s.mConnected = true → s.pc = .top ∨ s.pc = .waiting → .received ∉ s.stack →
    0 < s.outstanding + s.completed.length
  whole : s.mConnected = true → s.mCallback = true → s.Whole
  nested : Nested s.stack

namespace Posted

theorem start (mCallback : Bool) (mIdentifier : Bytes) :
    Posted (connect mCallback mIdentifier) where
  atMost := Nat.zero_le _
  preparing _ := rfl
  handling h := by cases h
  armed _ h := by rcases h with h | h <;> cases h
  whole _ _ := rfl
  nested := trivial

theorem keepsReceiving (h : Posted s) : KeepsReceiving s := fun hpc halone hconn =>
  ⟨h.armed hconn (Or.inl hpc) (by rw [halone.2]; exact List.not_mem_nil), h.whole hconn⟩

/-- Events that deliver nothing. -/
theorem whole_trace {es : List Event} (hes : ∀ e ∈ es, payload e = []) (h : s.Whole) :
    Whole { s with trace := s.trace ++ es } := by
  have hnil : es.flatMap payload = [] := List.flatMap_eq_nil_iff.mpr hes
  unfold Whole delivered at *
  show (s.trace ++ es).flatMap payload ++ s.inHand ++ s.unread = s.arrived
  rw [List.flatMap_append, hnil, List.append_nil]
  exact h

/-- An exception leaves the client, from the callbacks that are left. -/
theorem leave (h : Posted s) {stack : List Frame} (hno : .received ∉ stack) (hnested : Nested stack)
    (what : String) : Posted (Client.leave { s with stack := stack } what) where
  atMost := h.atMost
  preparing he := by cases he
  handling hmem := absurd hmem hno
  armed _ he := by rcases he with he | he <;> cases he
  whole hconn hcb := whole_trace (s := { s with stack := stack })
    (fun e he => by rw [List.mem_singleton.mp he]; rfl) (h.whole hconn hcb)
  nested := hnested

/-- A callback of a send is called. -/
theorem invoke (h : Posted s) {e : Event} {f : Frame} (he : payload e = []) (hf : f ≠ .received)
    (hnested : s.stack ≠ [] → f = .sending) : Posted (s.invoke e f) where
  atMost := h.atMost
  preparing := h.preparing
  handling hmem := h.handling ((List.mem_cons.mp hmem).resolve_left fun heq => hf heq.symm)
  armed hconn hpc hnot := h.armed hconn hpc fun hmem => hnot (List.mem_cons_of_mem f hmem)
  whole hconn hcb := whole_trace (fun e' he' => by rw [List.mem_singleton.mp he']; exact he)
    (h.whole hconn hcb)
  nested := ⟨hnested, h.nested⟩

/-- A callback ends that is not one for a receive. -/
theorem pop (h : Posted s) {f : Frame} {stack : List Frame} (hs : s.stack = f :: stack)
    (hf : f ≠ .received) : Posted { s with stack := stack } := by
  have hnested := h.nested
  rw [hs] at hnested
  exact { h with
    handling := fun hmem => h.handling (hs ▸ List.mem_cons_of_mem f hmem)
    armed := fun hconn hpc hnot => h.armed hconn hpc fun hmem => by
      rw [hs] at hmem
      exact hnot ((List.mem_cons.mp hmem).resolve_left fun heq => hf heq.symm)
    nested := hnested.2 }

/-- The callback for a receive ends, and the client is connected no longer. -/
theorem pop_received (h : Posted s) {stack : List Frame} (hs : s.stack = .received :: stack)
    (hconn : s.mConnected = false) : Posted { s with stack := stack } := by
  have hnested := h.nested
  rw [hs] at hnested
  exact { h with
    handling := fun hmem => h.handling (hs ▸ List.mem_cons_of_mem _ hmem)
    armed := fun hc => by
      have hc' : s.mConnected = true := hc
      rw [hconn] at hc'
      cases hc'
    nested := hnested.2 }

/-- The callback for a receive has no other below it. -/
theorem bottom (h : Posted s) {f : Frame} {stack : List Frame} (hs : s.stack = f :: stack)
    (hf : f ≠ .sending) : stack = [] := by
  have hnested := h.nested
  rw [hs] at hnested
  by_contra hne
  exact hf (hnested.1 hne)

/-! ### Steps -/

theorem call (h : Posted s) (c : Call) : Posted (s.call c) := by
  cases c with
  | sendDataToServer data => exact { h with }
  | disconnect =>
    show Posted s.disconnect
    unfold disconnect
    split_ifs
    · exact { h with
        atMost := by
          have hle := h.atMost
          show 0 + s.completed.length ≤ 1
          omega
        preparing := fun hpc => by
          have hzero := h.preparing hpc
          show 0 + s.completed.length = 0
          omega
        handling := fun hmem => by
          obtain ⟨hpc, hzero⟩ := h.handling hmem
          refine ⟨hpc, ?_⟩
          show 0 + s.completed.length = 0
          omega
        armed := fun hc => by cases hc
        whole := fun hc => by cases hc }
    · exact h

/-- **The first receive.** What it takes at once is delivered, and another one is prepared. -/
theorem prepare (h : Posted s) (halone : s.Alone) (hpc : s.pc = .preparing) (result : Received) :
    Posted (s.prepareClientToReceiveData result) := by
  have hzero := h.preparing hpc
  have hno : .received ∉ s.stack := by
    rw [halone.2]
    exact List.not_mem_nil
  have hcomp : s.completed = [] := List.eq_nil_of_length_eq_zero (by omega)
  cases result with
  | pending =>
    exact { h with
      atMost := by
        show s.outstanding + 1 + s.completed.length ≤ 1
        omega
      preparing := fun he => by cases he
      handling := fun hmem => absurd hmem hno
      armed := fun _ _ _ => by
        show 0 < s.outstanding + 1 + s.completed.length
        omega }
  | immediate count =>
    have hleft : ¬ (s.pc = .top ∨ s.pc = .waiting) := by
      rw [hpc]
      decide
    unfold prepareClientToReceiveData
    simp only
    split_ifs with hcb
    · exact { h with
        handling := fun hmem => absurd ((List.mem_cons.mp hmem).resolve_left (by decide)) hno
        armed := fun _ he => absurd he hleft
        whole := fun hconn hcb => by
          have hwhole := h.whole hconn hcb
          unfold Whole delivered inHand at *
          rw [hcomp] at hwhole
          show (s.trace ++
              [Event.receiveComplete s.mIdentifier (s.unread.take count)]).flatMap payload ++
            s.completed.flatMap _ ++ s.unread.drop count = s.arrived
          rw [hcomp, List.flatMap_append, List.flatMap_singleton, List.flatMap_nil, List.append_nil]
          rw [List.flatMap_nil, List.append_nil] at hwhole
          show s.trace.flatMap payload ++ s.unread.take count ++ s.unread.drop count = s.arrived
          rw [List.append_assoc, List.take_append_drop]
          exact hwhole
        nested := ⟨fun hne => absurd halone.2 hne, h.nested⟩ }
    · exact { h with
        whole := fun _ hcb' => absurd hcb' hcb }
  | failed error => exact h.leave hno h.nested _

theorem wsaSend (h : Posted s) (data : Bytes) (result : Started) :
    Posted (s.wsaSend data result) := by
  cases result with
  | pending => exact { h with }
  | immediate =>
    have hsent : Posted { s with
        sending := none
        sent := s.sent ++ [some data.length]
        sendEvent := true } := { h with }
    unfold Client.wsaSend
    simp only
    split_ifs
    · exact hsent.invoke rfl (by decide) fun _ => rfl
    · exact hsent
  | failed error =>
    exact { h with
      whole := fun hconn hcb => whole_trace (s := { s with sending := none })
        (fun e he => by rw [List.mem_singleton.mp he]; rfl) (h.whole hconn hcb) }

theorem resume (h : Posted s) {f : Frame} {stack : List Frame} (hs : s.stack = f :: stack)
    (hlistens : Listens s .returns) : Posted ({ s with stack := stack }.resume f) := by
  cases f with
  | prepare => exact h.pop hs (by decide)
  | received =>
    have hconn : s.mConnected = false := hlistens (by rw [hs]; rfl)
    exact { h.pop_received hs hconn with }
  | sent => exact { h.pop hs (by decide) with }
  | sending => exact h.pop hs (by decide)

theorem unwind (h : Posted s) {f : Frame} {stack : List Frame} (hs : s.stack = f :: stack)
    (what : String) : Posted ({ s with stack := stack }.unwind what f) := by
  -- what leaves the client has been called with nothing below it
  have hleave : f ≠ .sending → Posted (Client.leave { s with stack := stack } what) := by
    intro hf
    rw [h.bottom hs hf]
    exact h.leave List.not_mem_nil trivial what
  cases f with
  | prepare => exact hleave (by decide)
  | received => exact hleave (by decide)
  | sent => exact hleave (by decide)
  | sending => exact h.pop hs (by decide)

theorem receiveBranch (h : Posted s) (halone : s.Alone) (hpc : s.pc = .top)
    (hlistens : s.completed = [] ∨
      s.mCallback = true ∧ ∃ data rest, s.completed = some data :: rest) :
    Posted s.receiveBranch := by
  rcases hlistens with hnil | ⟨hcb, data, rest, hcons⟩
  · have hreset : s.receiveBranch = { s with receiveEvent := false } := by
      simp only [Client.receiveBranch, hnil]
    rw [hreset]
    exact { h with }
  · have hmost := h.atMost
    rw [hcons, List.length_cons] at hmost
    have hrest : rest = [] := List.eq_nil_of_length_eq_zero (by omega)
    have hout : s.outstanding = 0 := by omega
    subst hrest
    unfold Client.receiveBranch
    rw [hcons]
    simp only
    rw [if_pos hcb]
    exact { h with
      atMost := by
        show s.outstanding + 0 ≤ 1
        omega
      preparing := fun he => by
        have he' : s.pc = .preparing := he
        rw [hpc] at he'
        cases he'
      handling := fun _ => ⟨hpc, by
        show s.outstanding + 0 = 0
        omega⟩
      armed := fun _ _ hnot => absurd List.mem_cons_self hnot
      whole := fun hconn hcb => by
        have hwhole := h.whole hconn hcb
        unfold Whole delivered inHand at *
        rw [hcons, List.flatMap_singleton] at hwhole
        show (s.trace ++ [Event.receiveComplete s.mIdentifier data]).flatMap payload ++
          List.flatMap _ [] ++ s.unread = s.arrived
        rw [List.flatMap_append, List.flatMap_singleton, List.flatMap_nil, List.append_nil]
        exact hwhole
      nested := ⟨fun hne => absurd halone.2 hne, h.nested⟩ }

theorem sendBranch (h : Posted s) (halone : s.Alone) : Posted s.sendBranch := by
  have hno : .received ∉ s.stack := by
    rw [halone.2]
    exact List.not_mem_nil
  unfold Client.sendBranch
  split
  · exact { h with }
  · exact { h with }
  · split
    · exact { h with
        preparing := fun he => by cases he
        handling := fun hmem => absurd hmem hno
        armed := fun _ he => by rcases he with he | he <;> cases he }
    · rename_i count rest _ _ _ buffers _
      have hpop : Posted { s with sent := rest, mSendBuffers := buffers } := { h with }
      split_ifs
      · exact hpop.invoke (f := .sent) rfl (by decide) fun hne => absurd halone.2 hne
      · exact { hpop with }

theorem dispatch (h : Posted s) (halone : s.Alone) (hpc : s.pc = .waiting) {index : Index}
    (hlistens : Listens s (.signaled index)) : Posted (s.dispatch index) := by
  have hno : .received ∉ s.stack := by
    rw [halone.2]
    exact List.not_mem_nil
  have htop : Posted { s with pc := .top } :=
    { h with
      preparing := fun he => by cases he
      handling := fun hmem => absurd hmem hno
      armed := fun hconn _ hnot => h.armed hconn (Or.inr hpc) hnot }
  unfold Client.dispatch
  split_ifs with hconn
  · cases index with
    | receive => exact htop.receiveBranch halone rfl (hlistens hconn)
    | send => exact htop.sendBranch halone
  · exact { h with
      preparing := fun he => by cases he
      handling := fun hmem => absurd hmem hno
      armed := fun _ he => by rcases he with he | he <;> cases he }

/-- The client is left alone at another place. -/
theorem move (h : Posted s) (halone : s.Alone) {pc : Pc} (hpc : s.pc = .top ∨ s.pc = .waiting)
    (hne : pc ≠ .preparing) : Posted { s with pc := pc } :=
  { h with
    preparing := fun he => absurd he hne
    handling := fun hmem => by
      have hmem' : .received ∈ s.stack := hmem
      rw [halone.2] at hmem'
      cases hmem'
    armed := fun hconn _ hnot => h.armed hconn hpc hnot }

/-- A receive completes; what it has taken is no longer unread. -/
theorem complete (h : Posted s) (hpos : 0 < s.outstanding) {result : Option Bytes} {unread : Bytes}
    (hunread : result.getD [] ++ unread = s.unread) :
    Posted { s with
      outstanding := s.outstanding - 1
      completed := s.completed ++ [result]
      unread := unread
      receiveEvent := true } := by
  have hsum : s.outstanding - 1 + (s.completed ++ [result]).length =
      s.outstanding + s.completed.length := by
    rw [List.length_append, List.length_singleton]
    omega
  exact { h with
    atMost := hsum.trans_le h.atMost
    preparing := fun hpc => hsum.trans (h.preparing hpc)
    handling := fun hmem => ⟨(h.handling hmem).1, hsum.trans (h.handling hmem).2⟩
    armed := fun hconn hpc hnot => (h.armed hconn hpc hnot).trans_eq hsum.symm
    whole := fun hconn hcb => by
      have hwhole := h.whole hconn hcb
      unfold Whole delivered inHand at *
      show s.trace.flatMap payload ++ (s.completed ++ [result]).flatMap _ ++ unread = s.arrived
      rw [List.flatMap_append, List.flatMap_singleton, ← hwhole, ← hunread]
      simp only [List.append_assoc] }

/-- **A step** leaves the client its receive, if it listens. -/
theorem step (h : Posted s) {a : Action} (hlistens : Listens s a)
    (hs : Client.step s a = some t) : Posted t := by
  cases a with
  | call c =>
    obtain ⟨-, rfl⟩ := step_call hs
    exact h.call c
  | wsaRecv result =>
    obtain ⟨halone, hpc, -, rfl⟩ := step_wsaRecv hs
    exact h.prepare halone hpc result
  | wsaSend result =>
    obtain ⟨data, -, rfl⟩ := step_wsaSend hs
    exact h.wsaSend data result
  | returns =>
    obtain ⟨-, f, stack, hstack, rfl⟩ := step_returns hs
    exact h.resume hstack hlistens
  | throws what =>
    obtain ⟨-, f, stack, hstack, rfl⟩ := step_throws hs
    exact h.unwind hstack what
  | wait =>
    obtain ⟨halone, hpc, ⟨-, rfl⟩ | ⟨-, rfl⟩⟩ := step_wait hs
    · exact h.move halone (Or.inl hpc) (by decide)
    · exact h.move halone (Or.inl hpc) (by decide)
  | ioCompletion =>
    obtain ⟨halone, hpc, ⟨-, rfl⟩ | ⟨-, rfl⟩⟩ := step_ioCompletion hs
    · exact h
    · exact h.move halone (Or.inr hpc) (by decide)
  | waitFailed error =>
    obtain ⟨halone, rfl⟩ := step_waitFailed hs
    exact h.leave (by rw [halone.2]; exact List.not_mem_nil) h.nested _
  | signaled index =>
    obtain ⟨halone, hpc, rfl⟩ := step_signaled hs
    exact h.dispatch halone hpc hlistens
  | arrives data =>
    obtain rfl := step_arrives hs
    exact { h with
      whole := fun hconn hcb => by
        have hwhole := h.whole hconn hcb
        unfold Whole at *
        show s.delivered ++ s.inHand ++ (s.unread ++ data) = s.arrived ++ data
        rw [← List.append_assoc, hwhole] }
  | receives count =>
    obtain ⟨hpos, rfl⟩ := step_receives hs
    exact h.complete hpos (List.take_append_drop _ _)
  | receiveFails =>
    obtain ⟨hpos, rfl⟩ := step_receiveFails hs
    exact h.complete hpos rfl
  | sends i result =>
    obtain ⟨-, rfl⟩ := step_sends hs
    exact { h with }

/-- A completed receive that the loop handles is the last one of a client that stays connected. -/
theorem listens (h : Posted s) {a : Action} (hs : Client.step s a = some t)
    (ht : KeepsReceiving t) : Listens s a := by
  cases a with
  | returns =>
    intro hhead
    obtain ⟨hsending, f, stack, hstack, rfl⟩ := step_returns hs
    obtain rfl : f = .received := by
      rw [hstack] at hhead
      exact Option.some.inj hhead
    obtain ⟨hpc, hzero⟩ := h.handling (hstack ▸ List.mem_cons_self)
    by_contra hconn
    have hconn' : s.mConnected = true := by simpa using hconn
    have harmed : 0 < s.outstanding + s.completed.length :=
      (ht hpc ⟨hsending, h.bottom hstack (by decide)⟩ hconn').1
    omega
  | signaled index =>
    cases index with
    | send => trivial
    | receive =>
      intro hconn
      obtain ⟨halone, -, rfl⟩ := step_signaled hs
      by_contra hdeaf
      push Not at hdeaf
      obtain ⟨hne, hdeaf⟩ := hdeaf
      obtain ⟨result, rest, hcons⟩ := List.exists_cons_of_ne_nil hne
      have hmost := h.atMost
      rw [hcons, List.length_cons] at hmost
      have hnone : s.outstanding + rest.length = 0 := by omega
      have hconn' : ({ s with pc := .top } : Client).mConnected = true := hconn
      have hcons' : ({ s with pc := .top } : Client).completed = result :: rest := hcons
      unfold Client.dispatch at ht
      rw [if_pos hconn] at ht
      simp only at ht
      unfold Client.receiveBranch at ht
      rw [hcons'] at ht
      cases result with
      | none =>
        have harmed : 0 < s.outstanding + rest.length := (ht rfl halone hconn).1
        omega
      | some data =>
        have hcb : ¬ s.mCallback = true := fun hcb => hdeaf hcb data rest hcons
        simp only at ht
        rw [if_neg hcb] at ht
        have harmed : 0 < s.outstanding + rest.length := (ht rfl halone hconn).1
        omega
  | _ => trivial

end Posted

/-- **The client keeps receiving** in every state of a run if and only if its loop handles no
completed receive with the client still connected afterwards. -/
theorem keepsReceiving_iff (mCallback : Bool) (mIdentifier : Bytes) (as : List Action) :
    Always step KeepsReceiving (connect mCallback mIdentifier) as ↔
      Along step Listens (connect mCallback mIdentifier) as :=
  always_iff_along (I := Posted) (fun _ _ _ h _ hs ht => h.step (h.listens hs ht) hs)
    (fun _ _ _ h _ hs => ⟨h.listens hs, fun hl => (h.step hl hs).keepsReceiving⟩)
    as (Posted.start mCallback mIdentifier) (Posted.start mCallback mIdentifier).keepsReceiving

/-- **A deaf client.** It has heard one message and is connected; the second one stays unread. -/
theorem deaf_after_first : ∃ t, run step (connect true [97])
    [.wsaRecv .pending, .wait, .arrives [1], .receives 1, .signaled .receive, .returns,
      .arrives [2]] = some t ∧ ¬ KeepsReceiving t := by
  obtain ⟨t, ht, hpc, halone, hconn, hzero⟩ := exists_run step (connect true [97])
    [.wsaRecv .pending, .wait, .arrives [1], .receives 1, .signaled .receive, .returns,
      .arrives [2]]
    (fun t => t.pc = .top ∧ t.Alone ∧ t.mConnected = true ∧
      t.outstanding + t.completed.length = 0) (by decide)
  refine ⟨t, ht, fun h => ?_⟩
  have hpos := (h hpc halone hconn).1
  rw [hzero] at hpos
  exact lt_irrefl 0 hpos

end C11Http.Windows.Client
