import C11Http.Lib.Release
import C11Http.Posix.Loop

/-! # The life of a posix server and of its registry

A server from behind its constructor until it is destroyed, with calls of its public functions in
any order, each one ended before the next. The pointer `mConnections` is not set by the constructor:
`waitForEvents` allocates a registry over its own `masterRead`, which is out of scope when it
returns, and assigns the pointer, also when it is entered again. The registries are numbered in the
order in which they are allocated; the log has the uses and deletions of registries, and the uses
and ends of `masterRead`s under the numbers of the registries that refer to them. What is done
through the pointer before it is assigned is logged without a number; it is undefined in the
program, and in the model finds no connection.

The destructors are that of `posix::Server`, and that of `tcp::Server`, whose `PlatformServer` has
none and leaves the posix server where it is.

`registry_valid_iff`: the registry is valid in a run exactly if no `send` and no `broadcast` comes
before the first `waitForEvents`, and that has been entered exactly once when the server is
destroyed. -/

namespace C11Http.Posix

open C11Http.Lib C11Http.Lib.Run C11Http.Lib.Release

namespace Server

/-- `waitForEvents` up to its loop. -/
def enter (s : Server) : Server :=
  { s with mConnections := .new {s.mWakeupPipe.1, s.mConnectSocket}, pc := .top }

/-- `closeSocket`. -/
def closeSocket (s : Server) (fd : Fd) : Server :=
  { s with openFds := s.openFds.erase fd, trace := s.trace ++ [.closed fd] }

/-- The destructor of a connection. -/
def deleteConnection (s : Server) (p : Ptr) : Server :=
  (s.record [.deleted p]).closeSocket (s.heap p).mSocket

/-- `Connections::clear`; the map keeps its entries. -/
def clear (s : Server) : Server :=
  let s := s.mConnections.mContainer.foldl deleteConnection s
  { s with mConnections := { s.mConnections with mContainer := [] } }

/-- `Server::~Server`. -/
def destroy (s : Server) : Server :=
  let s := if s.mHasBeenShutdown then s else s.shutdown
  (s.closeSocket s.mConnectSocket).clear

end Server

/-- What the registries use: themselves, and the `masterRead` they refer to. -/
inductive Resource
  | connections (number : Option ℕ)
  | masterRead (number : Option ℕ)
  deriving DecidableEq

/-- Where the life of a server is: outside of `waitForEvents`, inside, or at its end. -/
inductive ServerPlace
  | outside
  | inside
  | destroyed
  | abandoned
  deriving DecidableEq

structure ServerLife where
  server : Server
  mConnections : Option ℕ
  allocated : ℕ
  stage : ServerPlace
  log : List (Access Resource)

namespace ServerLife

inductive Action
  | call (c : Call)
  | waitForEvents
  | loop (a : Server.Action)
  | returns
  | destroy
  | destroyTcp

/-- The constructor of `posix::Server` has succeeded. -/
def construct (setup : Server.Setup) : ServerLife :=
  { server := { Server.waitForEvents setup with mConnections := .new ∅, pc := .halted }
    mConnections := none, allocated := 0, stage := .outside, log := [] }

/-- `send` and `broadcast` look up connections, `shutdown` does not. -/
def callAccesses (o : ServerLife) : Call → List (Access Resource)
  | .send _ _ => [.use (.connections o.mConnections)]
  | .broadcast _ => [.use (.connections o.mConnections)]
  | .shutdown => []

/-- The loop asks the registry in every step, and where it reads, the registry may change the
`masterRead` it refers to. -/
def loopAccesses (o : ServerLife) : Server.Action → List (Access Resource)
  | .call c => o.callAccesses c
  | _ => [.use (.connections o.mConnections), .use (.masterRead o.mConnections)]

/-- `waitForEvents` can return: behind a shutdown, or by an exception. -/
def Returning (s : Server) : Prop := s.pc = .halted ∨ s.pc = .top ∧ s.mHasBeenShutdown = true

instance (s : Server) : Decidable (Returning s) := by unfold Returning; infer_instance

def step (o : ServerLife) : Action → Option ServerLife
  | .call c =>
    if o.stage = .outside then
      some { o with server := o.server.call c, log := o.log ++ o.callAccesses c }
    else none
  | .waitForEvents =>
    if o.stage = .outside then
      some { o with
        server := o.server.enter
        mConnections := some o.allocated
        allocated := o.allocated + 1
        stage := .inside }
    else none
  | .loop a =>
    if o.stage = .inside then
      (o.server.step a).map fun s => { o with server := s, log := o.log ++ o.loopAccesses a }
    else none
  | .returns =>
    if o.stage = .inside ∧ Returning o.server then
      some { o with stage := .outside, log := o.log ++ [.release (.masterRead o.mConnections)] }
    else none
  | .destroy =>
    if o.stage = .outside then
      some { o with
        server := o.server.destroy
        stage := .destroyed
        log := o.log ++ [.release (.connections o.mConnections)] }
    else none
  | .destroyTcp =>
    if o.stage = .outside then some { o with server := o.server.shutdown, stage := .abandoned }
    else none

/-- **The registry is valid**: nothing is done through the pointer before it is assigned, nothing
behind the end of a registry or of a `masterRead`, and in the end every registry has been deleted
once. -/
structure Valid (o : ServerLife) : Prop where
  assigned : ∀ a ∈ o.log, a.subject ≠ .connections none
  proper : Proper o.log
  deleted : o.stage = .destroyed → ∀ k < o.allocated,
    (released o.log).count (.connections (some k)) = 1

/-- The call looks up connections. -/
def LooksUp : Call → Prop
  | .shutdown => False
  | _ => True

/-- Connections are looked up behind the first `waitForEvents` only, and at the end of the server it
has been entered exactly once. -/
def Entered (o : ServerLife) : Action → Prop
  | .call c => LooksUp c → o.mConnections ≠ none
  | .destroy => o.allocated = 1
  | _ => True

/-- What holds while the server lives. -/
structure Inv (o : ServerLife) : Prop where
  pointer : o.mConnections = none ∧ o.allocated = 0 ∨
    ∃ k, o.mConnections = some k ∧ o.allocated = k + 1
  connections : ∀ k, .connections k ∉ released o.log
  masterRead : ∀ k, .masterRead k ∈ released o.log →
    ∃ i, k = some i ∧ i < o.allocated ∧ (o.stage = .inside → i + 1 < o.allocated)
  inside : o.stage = .inside → o.mConnections ≠ none

/-- It need not hold at the end. -/
def Living (o : ServerLife) : Prop := o.stage = .outside ∨ o.stage = .inside → Inv o

variable {o u : ServerLife}

/-! ### Uses -/

/-- **Uses of the registry the pointer points to**, and inside of `waitForEvents` of its
`masterRead`, keep everything. -/
theorem Inv.uses (h : Inv o) {log : List (Access Resource)} (hproper : Proper o.log)
    (hlog : ∀ a ∈ log, a = .use (.connections o.mConnections) ∨
      o.stage = .inside ∧ a = .use (.masterRead o.mConnections)) :
    released (o.log ++ log) = released o.log ∧ Proper (o.log ++ log) := by
  have hnone : released log = [] := by
    rw [List.eq_nil_iff_forall_not_mem]
    intro r hr
    rcases hlog _ (mem_released.mp hr) with ha | ⟨-, ha⟩ <;> cases ha
  refine ⟨by rw [released_append, hnone, List.append_nil], proper_append.mpr
    ⟨hproper, proper_of_released_nil hnone, fun a ha hmem => ?_⟩⟩
  rcases hlog a ha with rfl | ⟨hin, rfl⟩
  · exact h.connections _ hmem
  · obtain ⟨i, hi, -, hlt⟩ := h.masterRead _ hmem
    rcases h.pointer with ⟨hk, -⟩ | ⟨k, hk, hall⟩
    · exact h.inside hin hk
    · rw [hk, Option.some.injEq] at hi
      have := hlt hin
      omega

/-- The same server with more uses. -/
theorem Inv.with_uses (h : Inv o) {log : List (Access Resource)} {server : Server}
    (hrel : released log = released o.log) : Inv { o with server := server, log := log } where
  pointer := h.pointer
  connections k := by rw [hrel]; exact h.connections k
  masterRead k hk := h.masterRead k (hrel ▸ hk)
  inside := h.inside

theorem mem_callAccesses {c : Call} {a : Access Resource} (ha : a ∈ o.callAccesses c) :
    a = .use (.connections o.mConnections) ∧ LooksUp c := by
  cases c with
  | send data identifier => exact ⟨List.mem_singleton.mp ha, trivial⟩
  | broadcast data => exact ⟨List.mem_singleton.mp ha, trivial⟩
  | shutdown => cases ha

theorem mem_loopAccesses {a : Server.Action} {b : Access Resource} (hb : b ∈ o.loopAccesses a) :
    b = .use (.connections o.mConnections) ∨ b = .use (.masterRead o.mConnections) := by
  have hpair : ∀ b ∈ [Access.use (Resource.connections o.mConnections),
      .use (.masterRead o.mConnections)], b = .use (.connections o.mConnections) ∨
        b = .use (.masterRead o.mConnections) := by
    intro b hb
    simpa using hb
  cases a with
  | call c => exact Or.inl (mem_callAccesses hb).1
  | select result => exact hpair b hb
  | read attempt connected e => exact hpair b hb
  | write e => exact hpair b hb

/-- What is logged is done through an assigned pointer exactly if all of it is. -/
theorem assigned_append_iff {log : List (Access Resource)}
    (h : ∀ a ∈ o.log, a.subject ≠ .connections none) :
    (∀ a ∈ o.log ++ log, a.subject ≠ .connections none) ↔
      ∀ a ∈ log, a.subject ≠ .connections none := by
  rw [List.forall_mem_append]
  exact and_iff_right h

/-! ### The actions -/

theorem step_call {c : Call} (h : step o (.call c) = some u) : o.stage = .outside ∧
    u = { o with server := o.server.call c, log := o.log ++ o.callAccesses c } := by
  simp only [step] at h
  split_ifs at h with hout
  cases h
  exact ⟨hout, rfl⟩

theorem step_waitForEvents (h : step o .waitForEvents = some u) : o.stage = .outside ∧
    u = { o with
      server := o.server.enter
      mConnections := some o.allocated
      allocated := o.allocated + 1
      stage := .inside } := by
  simp only [step] at h
  split_ifs at h with hout
  cases h
  exact ⟨hout, rfl⟩

theorem step_loop {a : Server.Action} (h : step o (.loop a) = some u) : o.stage = .inside ∧
    ∃ s, o.server.step a = some s ∧
      u = { o with server := s, log := o.log ++ o.loopAccesses a } := by
  simp only [step] at h
  split_ifs at h with hin
  obtain ⟨s, hs, rfl⟩ := Option.map_eq_some_iff.mp h
  exact ⟨hin, s, hs, rfl⟩

theorem step_returns (h : step o .returns = some u) : o.stage = .inside ∧ Returning o.server ∧
    u = { o with stage := .outside, log := o.log ++ [.release (.masterRead o.mConnections)] } := by
  simp only [step] at h
  split_ifs at h with hin
  cases h
  exact ⟨hin.1, hin.2, rfl⟩

theorem step_destroy (h : step o .destroy = some u) : o.stage = .outside ∧
    u = { o with
      server := o.server.destroy
      stage := .destroyed
      log := o.log ++ [.release (.connections o.mConnections)] } := by
  simp only [step] at h
  split_ifs at h with hout
  cases h
  exact ⟨hout, rfl⟩

theorem step_destroyTcp (h : step o .destroyTcp = some u) : o.stage = .outside ∧
    u = { o with server := o.server.shutdown, stage := .abandoned } := by
  simp only [step] at h
  split_ifs at h with hout
  cases h
  exact ⟨hout, rfl⟩

theorem living_step {a : Action} (hl : Living o) (hv : Valid o) (h : step o a = some u) :
    Living u := by
  intro hu
  cases a with
  | call c =>
    obtain ⟨hout, rfl⟩ := step_call h
    have hinv := hl (Or.inl hout)
    exact hinv.with_uses
      (hinv.uses hv.proper fun a ha => Or.inl (mem_callAccesses ha).1).1
  | waitForEvents =>
    obtain ⟨hout, rfl⟩ := step_waitForEvents h
    have hinv := hl (Or.inl hout)
    refine ⟨Or.inr ⟨o.allocated, rfl, rfl⟩, hinv.connections, fun k hk => ?_, fun _ h => by cases h⟩
    obtain ⟨i, hi, hlt, -⟩ := hinv.masterRead k hk
    exact ⟨i, hi, hlt.trans (Nat.lt_succ_self _), fun _ => Nat.succ_lt_succ hlt⟩
  | loop a =>
    obtain ⟨hin, s, -, rfl⟩ := step_loop h
    have hinv := hl (Or.inr hin)
    exact hinv.with_uses (hinv.uses hv.proper fun b hb =>
      (mem_loopAccesses hb).imp_right fun he => ⟨hin, he⟩).1
  | returns =>
    obtain ⟨hin, -, rfl⟩ := step_returns h
    have hinv := hl (Or.inr hin)
    refine ⟨hinv.pointer, fun k hk => ?_, fun k hk => ?_, fun hin => by cases hin⟩
    · rw [released_append] at hk
      rcases List.mem_append.mp hk with hk | hk
      · exact hinv.connections k hk
      · simp at hk
    · rw [released_append] at hk
      rcases List.mem_append.mp hk with hk | hk
      · obtain ⟨i, hi, hlt, -⟩ := hinv.masterRead k hk
        exact ⟨i, hi, hlt, fun hin => by cases hin⟩
      · simp only [released_release_cons, released_nil, List.mem_singleton,
          Resource.masterRead.injEq] at hk
        rcases hinv.pointer with ⟨hnone, -⟩ | ⟨i, hi, hall⟩
        · exact absurd hnone (hinv.inside hin)
        · exact ⟨i, hk.trans hi, by rw [hall]; exact Nat.lt_succ_self i, fun hin => by cases hin⟩
  | destroy =>
    obtain ⟨-, rfl⟩ := step_destroy h
    rcases hu with hu | hu <;> cases hu
  | destroyTcp =>
    obtain ⟨-, rfl⟩ := step_destroyTcp h
    rcases hu with hu | hu <;> cases hu

/-- **A call** is valid if it looks nothing up, or the pointer is assigned. -/
theorem valid_call_iff (h : Inv o) (hv : Valid o) (hout : o.stage = .outside) (c : Call) :
    Valid { o with server := o.server.call c, log := o.log ++ o.callAccesses c } ↔
      (LooksUp c → o.mConnections ≠ none) := by
  have hproper : Proper (o.log ++ o.callAccesses c) :=
    (h.uses hv.proper fun a ha => Or.inl (mem_callAccesses ha).1).2
  have hend : ¬ o.stage = .destroyed := by rw [hout]; decide
  have hall : (∀ a ∈ o.callAccesses c, a.subject ≠ .connections none) ↔
      (LooksUp c → o.mConnections ≠ none) := by
    constructor
    · intro hall hlooks hnone
      have hmem : Access.use (.connections o.mConnections) ∈ o.callAccesses c := by
        cases c with
        | send data identifier => exact List.mem_singleton_self _
        | broadcast data => exact List.mem_singleton_self _
        | shutdown => cases hlooks
      exact hall _ hmem (by rw [hnone]; rfl)
    · intro hlooks a ha
      obtain ⟨rfl, hup⟩ := mem_callAccesses ha
      exact fun he => hlooks hup (Resource.connections.inj he)
  rw [← hall, ← assigned_append_iff hv.assigned]
  exact ⟨fun h => h.assigned, fun hass => ⟨hass, hproper, fun hd => absurd hd hend⟩⟩

theorem valid_loop (h : Inv o) (hv : Valid o) (hin : o.stage = .inside) (a : Server.Action)
    (s : Server) : Valid { o with server := s, log := o.log ++ o.loopAccesses a } where
  assigned := by
    rw [assigned_append_iff hv.assigned]
    intro b hb
    rcases mem_loopAccesses hb with rfl | rfl
    · exact fun he => h.inside hin (Resource.connections.inj he)
    · exact fun he => by cases he
  proper := (h.uses hv.proper fun b hb =>
    (mem_loopAccesses hb).imp_right fun he => ⟨hin, he⟩).2
  deleted hd := by
    have hd' : o.stage = .destroyed := hd
    rw [hin] at hd'
    cases hd'

theorem valid_returns (h : Inv o) (hv : Valid o) (hin : o.stage = .inside) :
    Valid { o with
      stage := .outside
      log := o.log ++ [.release (.masterRead o.mConnections)] } where
  assigned := by
    rw [assigned_append_iff hv.assigned]
    intro a ha
    rw [List.mem_singleton.mp ha]
    exact fun he => by cases he
  proper := by
    refine hv.proper.release fun hmem => ?_
    obtain ⟨i, hi, -, hlt⟩ := h.masterRead _ hmem
    rcases h.pointer with ⟨hnone, -⟩ | ⟨k, hk, hall⟩
    · exact h.inside hin hnone
    · rw [hk, Option.some.injEq] at hi
      have := hlt hin
      omega
  deleted hd := by cases hd

/-- **The destructor** deletes the one registry that the pointer points to. -/
theorem valid_destroy_iff (h : Inv o) (hv : Valid o) :
    Valid { o with
      server := o.server.destroy
      stage := .destroyed
      log := o.log ++ [.release (.connections o.mConnections)] } ↔ o.allocated = 1 := by
  have hcount : ∀ k, (released (o.log ++ [.release (.connections o.mConnections)])).count
      (.connections (some k)) = if o.mConnections = some k then 1 else 0 := by
    intro k
    rw [released_append, List.count_append, List.count_eq_zero_of_not_mem (h.connections (some k)),
      Nat.zero_add, released_release_cons, released_nil, List.count_singleton]
    simp
  constructor
  · intro hv'
    rcases h.pointer with ⟨hnone, -⟩ | ⟨k, hk, hall⟩
    · have hmem : Access.release (.connections o.mConnections) ∈
          o.log ++ [.release (.connections o.mConnections)] :=
        List.mem_append_right _ (List.mem_singleton_self _)
      exact absurd (by rw [hnone]; rfl) (hv'.assigned _ hmem)
    · have hfirst : 0 < o.allocated := by omega
      have hone := hv'.deleted rfl 0 hfirst
      have hone' : (if o.mConnections = some 0 then 1 else 0) = 1 := (hcount 0).symm.trans hone
      split_ifs at hone' with hzero
      rw [hk, Option.some.injEq] at hzero
      omega
  · intro hone
    obtain ⟨k, hk, hall⟩ := h.pointer.resolve_left fun hno => by omega
    obtain rfl : k = 0 := by omega
    refine ⟨?_, hv.proper.release (h.connections _), fun _ i hi => (hcount i).trans (if_pos ?_)⟩
    · refine (assigned_append_iff hv.assigned).mpr fun a ha => ?_
      rw [List.mem_singleton.mp ha, hk]
      exact fun he => by cases he
    · have hi' : i < o.allocated := hi
      obtain rfl : i = 0 := by omega
      exact hk

theorem valid_step_iff {a : Action} (hl : Living o) (hv : Valid o) (h : step o a = some u) :
    Valid u ↔ Entered o a := by
  cases a with
  | call c =>
    obtain ⟨hout, rfl⟩ := step_call h
    exact valid_call_iff (hl (Or.inl hout)) hv hout c
  | waitForEvents =>
    obtain ⟨-, rfl⟩ := step_waitForEvents h
    exact iff_of_true ⟨hv.assigned, hv.proper, fun hd => by cases hd⟩ trivial
  | loop a =>
    obtain ⟨hin, s, -, rfl⟩ := step_loop h
    exact iff_of_true (valid_loop (hl (Or.inr hin)) hv hin a s) trivial
  | returns =>
    obtain ⟨hin, -, rfl⟩ := step_returns h
    exact iff_of_true (valid_returns (hl (Or.inr hin)) hv hin) trivial
  | destroy =>
    obtain ⟨hout, rfl⟩ := step_destroy h
    exact valid_destroy_iff (hl (Or.inl hout)) hv
  | destroyTcp =>
    obtain ⟨-, rfl⟩ := step_destroyTcp h
    exact iff_of_true ⟨hv.assigned, hv.proper, fun hd => by cases hd⟩ trivial

theorem living_construct (setup : Server.Setup) : Living (construct setup) := fun _ =>
  { pointer := Or.inl ⟨rfl, rfl⟩
    connections := fun _ => List.not_mem_nil
    masterRead := fun _ hk => by cases hk
    inside := fun hin => by cases hin }

/-- **The registry is valid in a run exactly if connections are looked up behind the first
`waitForEvents` only**, and that has been entered once when the server is destroyed. -/
theorem registry_valid_iff (setup : Server.Setup) (as : List Action) :
    Always step Valid (construct setup) as ↔ Along step Entered (construct setup) as :=
  always_iff_along (I := Living) (fun _ _ _ hI hP hs _ => living_step hI hP hs)
    (fun _ _ _ hI hP hs => valid_step_iff hI hP hs) as (living_construct setup)
    ⟨fun _ ha => (by cases ha), proper_nil, fun hd => by cases hd⟩

/-- **A `broadcast` or the destructor before `waitForEvents`** goes through a pointer that has not
been assigned, and **a second `waitForEvents`** leaves the registry of the first behind. -/
theorem registry_invalid :
    (∃ o, run step (construct Server.listening) [.call (.broadcast [104])] = some o ∧
      .use (.connections none) ∈ o.log ∧ ¬ Valid o) ∧
    (∃ o, run step (construct Server.listening) [.destroy] = some o ∧
      .release (.connections none) ∈ o.log ∧ ¬ Valid o) ∧
    ∃ o, run step (construct Server.listening)
        [.waitForEvents, .loop (.call .shutdown), .returns, .waitForEvents, .returns, .destroy] =
          some o ∧
      o.allocated = 2 ∧ .release (.connections (some 0)) ∉ o.log ∧ ¬ Valid o := by
  refine ⟨⟨_, rfl, by decide, fun h => ?_⟩, ⟨_, rfl, by decide, fun h => ?_⟩,
    ⟨_, rfl, rfl, by decide, fun h => ?_⟩⟩
  · exact h.assigned (.use (.connections none)) (by decide) rfl
  · exact h.assigned (.release (.connections none)) (by decide) rfl
  · exact absurd (h.deleted rfl 0 (by decide)) (by decide)

end ServerLife

end C11Http.Posix
