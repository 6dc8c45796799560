import Mathlib.Data.Finset.Lattice.Lemmas
import Mathlib.Order.Bounds.Basic
import C11Http.Posix.Loop

/-! # What select watches for reading

Runs of `addServerConnection` and `removeServerConnection` on the registry with which
`waitForEvents` begins, for objects whose sockets are those in the heap. A socket that is added is
neither that of the self-pipe nor the listening one nor that of a registered connection, and a
socket that is removed is none of the first two; it need not be registered.

The largest socket is kept by a comparison when a connection is added and computed anew when one is
removed, and the set of descriptors is changed on its own. `covers_always`: the three agree after
every run, so that `select` and the scan behind it come to every watched descriptor. -/

namespace C11Http.Posix

open C11Http.Lib.Run

namespace Connections

variable {heap : Heap}

/-! ### The largest socket -/

@[simp] theorem largest_nil (heap : Heap) : largest heap [] = -1 := rfl

theorem largest_concat (heap : Heap) (ps : List Ptr) (p : Ptr) :
    largest heap (ps ++ [p]) = max (largest heap ps) (heap p).mSocket := by
  unfold largest
  rw [List.foldl_append]
  rfl

theorem le_largest {ps : List Ptr} {p : Ptr} (hp : p ∈ ps) :
    ((heap p).mSocket : ℤ) ≤ largest heap ps := by
  induction ps using List.reverseRecOn with
  | nil => cases hp
  | append_singleton ps q ih =>
    rw [largest_concat]
    rcases List.mem_append.mp hp with hp | hp
    · exact le_max_of_le_left (ih hp)
    · rw [List.mem_singleton.mp hp]
      exact le_max_right _ _

/-- The largest socket is one of the vector, or `-1`. -/
theorem largest_cases (heap : Heap) (ps : List Ptr) :
    largest heap ps = -1 ∨ ∃ p ∈ ps, largest heap ps = (heap p).mSocket := by
  induction ps using List.reverseRecOn with
  | nil => exact Or.inl rfl
  | append_singleton ps q ih =>
    have hq : q ∈ ps ++ [q] := List.mem_append_right _ (List.mem_singleton_self q)
    rw [largest_concat]
    rcases le_total (largest heap ps) (heap q).mSocket with hle | hle
    · exact Or.inr ⟨q, hq, max_eq_right hle⟩
    · rw [max_eq_left hle]
      refine ih.imp_right ?_
      rintro ⟨p, hp, he⟩
      exact ⟨p, List.mem_append_left _ hp, he⟩

/-- A removal leaves the sockets that are not removed, and the maximum of what it leaves. -/
theorem removeServerConnection_sockets {c : Connections} (h : c.SocketsDistinct heap)
    (hmax : c.mFdMax = largest heap c.mContainer) (sckt : Fd) :
    let d := (c.removeServerConnection heap sckt).1
    d.sockets heap = (c.sockets heap).erase sckt ∧ d.mRead = c.mRead.erase sckt ∧
      d.mFdMax = largest heap d.mContainer := by
  by_cases hno : ∀ p ∈ c.mContainer, (heap p).mSocket ≠ sckt
  · have hmem : sckt ∉ c.sockets heap := by
      rw [mem_sockets]
      rintro ⟨p, hp, he⟩
      exact hno p hp he
    rw [removeServerConnection_none hno, List.erase_of_not_mem hmem]
    exact ⟨rfl, rfl, hmax⟩
  · push Not at hno
    obtain ⟨p, hp, rfl⟩ := hno
    obtain ⟨xs, ys, hc⟩ := List.append_of_mem hp
    obtain ⟨victim, hv⟩ : ∃ v, c.mContainer.getLast? = some v :=
      ⟨_, List.getLast?_eq_some_getLast (List.ne_nil_of_mem hp)⟩
    rw [removeServerConnection_mem h hc hv]
    refine ⟨?_, rfl, rfl⟩
    have hxs : (heap p).mSocket ∉ xs.map fun q => (heap q).mSocket := by
      intro hmem
      obtain ⟨q, hq, he⟩ := List.mem_map.mp hmem
      exact (h.split hc).1 q hq he
    unfold sockets
    rw [hc, List.map_append, List.map_append, List.map_cons, List.erase_append_right _ hxs,
      List.erase_cons_head]

end Connections

namespace Server.SelectSets

open Connections

inductive Op
  | add (client : Ptr)
  | remove (sckt : Fd)

/-- The socket is that of the self-pipe or the listening one. -/
def Own (s : Server) (sckt : Fd) : Prop := sckt = s.mWakeupPipe.1 ∨ sckt = s.mConnectSocket

instance (s : Server) (sckt : Fd) : Decidable (Own s sckt) := by unfold Own; infer_instance

def step (s : Server) : Op → Option Server
  | .add client =>
    if ¬ Own s (s.heap client).mSocket ∧
        ∀ p ∈ s.mConnections.mContainer, (s.heap p).mSocket ≠ (s.heap client).mSocket then
      some (s.addServerConnection client)
    else none
  | .remove sckt => if Own s sckt then none else some (s.removeServerConnection sckt)

/-- The server at its first arrival in the loop, with the objects it will have. -/
def start (setup : Setup) (heap : Heap) : Server := { waitForEvents setup with heap := heap }

/-- What holds after every run. -/
structure Inv (s : Server) : Prop where
  distinct : s.mConnections.SocketsDistinct s.heap
  own : ∀ fd ∈ s.mConnections.sockets s.heap, ¬ Own s fd
  read : s.mConnections.mRead =
    {s.mWakeupPipe.1, s.mConnectSocket} ∪ (s.mConnections.sockets s.heap).toFinset
  max : s.mConnections.mFdMax = largest s.heap s.mConnections.mContainer

variable {s t : Server}

theorem inv_start (setup : Setup) (heap : Heap) : Inv (start setup heap) where
  distinct := List.nodup_nil
  own fd hfd := by cases hfd
  read := (Finset.union_empty _).symm
  max := rfl

theorem step_add {client : Ptr} (h : step s (.add client) = some t) :
    ¬ Own s (s.heap client).mSocket ∧
      (∀ p ∈ s.mConnections.mContainer, (s.heap p).mSocket ≠ (s.heap client).mSocket) ∧
      t = s.addServerConnection client := by
  simp only [step] at h
  split_ifs at h with hnew
  cases h
  exact ⟨hnew.1, hnew.2, rfl⟩

theorem step_remove {sckt : Fd} (h : step s (.remove sckt) = some t) :
    ¬ Own s sckt ∧ t = s.removeServerConnection sckt := by
  simp only [step] at h
  split_ifs at h with hown
  cases h
  exact ⟨hown, rfl⟩

/-- A removal changes the registry and nothing else that matters here. -/
theorem removeServerConnection_frame (s : Server) (sckt : Fd) :
    let t := s.removeServerConnection sckt
    t.mConnections = (s.mConnections.removeServerConnection s.heap sckt).1 ∧ t.heap = s.heap ∧
      t.mWakeupPipe = s.mWakeupPipe ∧ t.mConnectSocket = s.mConnectSocket := by
  unfold Server.removeServerConnection
  split
  · rename_i he; rw [he]; exact ⟨rfl, rfl, rfl, rfl⟩
  · rename_i he; rw [he]; exact ⟨rfl, rfl, rfl, rfl⟩

theorem Inv.add (h : Inv s) {client : Ptr} (hown : ¬ Own s (s.heap client).mSocket)
    (hnew : ∀ p ∈ s.mConnections.mContainer, (s.heap p).mSocket ≠ (s.heap client).mSocket) :
    Inv (s.addServerConnection client) := by
  have hsockets : (s.mConnections.addServerConnection s.heap client).sockets s.heap =
      s.mConnections.sockets s.heap ++ [(s.heap client).mSocket] := List.map_append
  constructor
  · exact h.distinct.add hnew
  · intro fd hfd
    have hfd' : fd ∈ s.mConnections.sockets s.heap ++ [(s.heap client).mSocket] := hsockets ▸ hfd
    rcases List.mem_append.mp hfd' with hfd | hfd
    · exact h.own fd hfd
    · rw [List.mem_singleton.mp hfd]
      exact hown
  · show insert _ s.mConnections.mRead = _ ∪
      ((s.mConnections.addServerConnection s.heap client).sockets s.heap).toFinset
    rw [hsockets, h.read]
    ext fd
    simp only [Finset.mem_insert, Finset.mem_union, List.mem_toFinset, List.mem_append,
      List.mem_singleton]
    tauto
  · show Max.max s.mConnections.mFdMax ((s.heap client).mSocket : ℤ) =
      largest s.heap (_ ++ [client])
    rw [h.max, largest_concat]

theorem Inv.remove (h : Inv s) {sckt : Fd} (hown : ¬ Own s sckt) :
    Inv (s.removeServerConnection sckt) := by
  obtain ⟨hconn, hheap, hpipe, hlisten⟩ := removeServerConnection_frame s sckt
  obtain ⟨hsockets, hread, hmax⟩ := removeServerConnection_sockets h.distinct h.max sckt
  have hnd : (s.mConnections.sockets s.heap).Nodup := h.distinct
  constructor
  · rw [hconn, hheap]
    exact h.distinct.sublist (removeServerConnection_sublist h.distinct sckt)
  · intro fd hfd
    rw [hconn, hheap, hsockets] at hfd
    unfold Own
    rw [hpipe, hlisten]
    exact h.own fd (List.mem_of_mem_erase hfd)
  · rw [hconn, hheap, hpipe, hlisten, hread, hsockets, h.read]
    unfold Own at hown
    push Not at hown
    ext fd
    simp only [Finset.mem_erase, Finset.mem_union, Finset.mem_insert, Finset.mem_singleton,
      List.mem_toFinset, hnd.mem_erase_iff]
    constructor
    · rintro ⟨hne, hfd | hfd⟩
      · exact Or.inl hfd
      · exact Or.inr ⟨hne, hfd⟩
    · rintro (hfd | ⟨hne, hfd⟩)
      · refine ⟨?_, Or.inl hfd⟩
        rcases hfd with rfl | rfl
        · exact hown.1.symm
        · exact hown.2.symm
      · exact ⟨hne, Or.inr hfd⟩
  · rw [hconn, hheap]
    exact hmax

theorem inv_step {op : Op} (h : Inv s) (hs : step s op = some t) : Inv t := by
  cases op with
  | add client =>
    obtain ⟨hown, hnew, rfl⟩ := step_add hs
    exact h.add hown hnew
  | remove sckt =>
    obtain ⟨hown, rfl⟩ := step_remove hs
    exact h.remove hown

/-- **What is watched for reading**: the self-pipe, the listening socket and the sockets of the
registered connections, each once; `getMax` is the largest of the last, or `-1`; and nothing is
beyond the descriptors of a pass. -/
structure Covers (s : Server) : Prop where
  read : s.mConnections.mRead =
    {s.mWakeupPipe.1, s.mConnectSocket} ∪ (s.mConnections.sockets s.heap).toFinset
  once : (s.mConnections.sockets s.heap).Nodup
  own : s.mWakeupPipe.1 ∉ s.mConnections.sockets s.heap ∧
    s.mConnectSocket ∉ s.mConnections.sockets s.heap
  none : s.mConnections.mContainer = [] → s.mConnections.getMax = -1
  max : s.mConnections.mContainer ≠ [] →
    IsGreatest {m : ℤ | ∃ fd ∈ s.mConnections.sockets s.heap, m = fd} s.mConnections.getMax
  range : ∀ fd ∈ s.mConnections.mRead, fd ≤ s.fdmax

theorem le_fdmax {m : ℤ} {fd : Fd} (hfd : (fd : ℤ) ≤ m)
    (hm : m ≤ Max.max (Max.max (s.mWakeupPipe.1 : ℤ) s.mConnectSocket) s.mConnections.getMax) :
    fd ≤ s.fdmax := by
  have hle := hfd.trans hm
  have hnonneg : (0 : ℤ) ≤ fd := Int.natCast_nonneg fd
  exact (Int.le_toNat (hnonneg.trans hle)).mpr hle

theorem Inv.covers (h : Inv s) : Covers s where
  read := h.read
  once := h.distinct
  own := ⟨fun hmem => h.own _ hmem (Or.inl rfl), fun hmem => h.own _ hmem (Or.inr rfl)⟩
  none hnone := by
    unfold getMax
    rw [h.max, hnone, largest_nil]
  max hne := by
    obtain ⟨p, hp⟩ := List.exists_mem_of_ne_nil _ hne
    have hle : ((s.heap p).mSocket : ℤ) ≤ largest s.heap s.mConnections.mContainer := le_largest hp
    unfold getMax
    rw [h.max]
    constructor
    · rcases largest_cases s.heap s.mConnections.mContainer with he | ⟨q, hq, he⟩
      · omega
      · exact ⟨_, mem_sockets.mpr ⟨q, hq, rfl⟩, he⟩
    · rintro m ⟨fd, hfd, rfl⟩
      obtain ⟨q, hq, rfl⟩ := mem_sockets.mp hfd
      exact le_largest hq
  range fd hfd := by
    rw [h.read, Finset.mem_union, List.mem_toFinset] at hfd
    rcases hfd with hfd | hfd
    · rw [Finset.mem_insert, Finset.mem_singleton] at hfd
      rcases hfd with rfl | rfl
      · exact le_fdmax le_rfl (le_max_of_le_left (le_max_left _ _))
      · exact le_fdmax le_rfl (le_max_of_le_left (le_max_right _ _))
    · obtain ⟨p, hp, rfl⟩ := mem_sockets.mp hfd
      refine le_fdmax (le_largest hp) (le_max_of_le_right ?_)
      exact h.max.symm.le

/-- **The sets and the maximum agree after every run.** -/
theorem covers_always (setup : Setup) (heap : Heap) (ops : List Op) :
    Always step Covers (start setup heap) ops :=
  (always_of_inv (fun _ _ _ h hs => inv_step h hs) ops (inv_start setup heap)).imp
    fun _ h => h.covers

end Server.SelectSets

end C11Http.Posix
