import C11Http.Posix.Client
import C11Http.Posix.Outgoing

/-! # The order of outgoing messages

Messages are queued, by `send` and `broadcast` on the posix server and by `sendDataToServer` on the
posix client, and the queue is sent whole, in any order of these operations. Both sides insert a
message at the beginning of the bytes that wait, so a run keeps the order of the messages exactly if
each of its messages could as well stand behind the bytes that wait when it is queued
(`outgoing_inOrder_iff`): nothing waits, or it is empty, or the two are powers of one word. And a
queue has to fit the `int` that holds its size, or it is not sent whole. -/

namespace C11Http.Posix

open C11Http.Lib C11Http.Lib.Run

/-- A buffer that is handed to `::send`, whatever becomes of it. -/
def whole (buffer : Bytes) (_ : ℤ) : Bytes := buffer

theorem whole_apply (buffer : Bytes) (result : ℤ) : whole buffer result = buffer := rfl

instance (o : Outbox UInt8) : Decidable (o.InOrder whole) := by
  unfold Outbox.InOrder; infer_instance

namespace Server

/-- A call, or a `sendQueuedMessage` whose `::send` takes all it is offered. What `sendComplete`
calls are operations that follow. -/
inductive QueueOp
  | call (c : Call)
  | sendQueuedMessage (connection : Ptr)

def queueStep (s : Server) : QueueOp → Option Server
  | .call c => some (s.call c)
  | .sendQueuedMessage q => some (s.handing q (offered (s.heap q).mOutgoingBytes).length)

/-- The messages of a call could as well stand behind what waits for `p`, and in the order of the
call; a queue that is sent fits. -/
def KeepsOrder (p : Ptr) (s : Server) : QueueOp → Prop
  | .call c => (c.messages s.mConnections p).reverse.flatten ++ (s.heap p).mOutgoingBytes =
      (s.heap p).mOutgoingBytes ++ (c.messages s.mConnections p).flatten
  | .sendQueuedMessage q => q = p →
      offered (s.heap p).mOutgoingBytes = (s.heap p).mOutgoingBytes

instance (p : Ptr) (s : Server) (o : QueueOp) : Decidable (KeepsOrder p s o) := by
  cases o <;> unfold KeepsOrder <;> infer_instance

/-- Nothing has been queued or sent for the connection. -/
def NewQueue (p : Ptr) (s : Server) : Prop :=
  (outbox p s).pending = [] ∧ (outbox p s).log = []

instance (p : Ptr) (s : Server) : Decidable (NewQueue p s) :=
  decidable_of_iff ((s.heap p).mOutgoingBytes = [] ∧ (outbox p s).log.length = 0)
    (and_congr Iff.rfl List.length_eq_zero_iff)

theorem NewQueue.inOrder {p : Ptr} {s : Server} (h : NewQueue p s)
    (part : Bytes → ℤ → Bytes) : (outbox p s).InOrder part := by
  unfold Outbox.InOrder Outbox.gone Outbox.queued
  rw [h.1, h.2]
  rfl

theorem queueStep_inOrder_iff {p : Ptr} {s t : Server} {o : QueueOp}
    (hs : (outbox p s).InOrder whole) (h : queueStep s o = some t) :
    (outbox p t).InOrder whole ↔ KeepsOrder p s o := by
  cases o with
  | call c =>
    cases h
    rw [(outbox_call p s c).inOrder_iff, Outbox.pushAll_inOrder_iff hs]
    rfl
  | sendQueuedMessage q =>
    cases h
    by_cases hq : q = p
    · subst hq
      rw [outbox_handing_self, Outbox.drain_inOrder_iff hs, whole_apply]
      exact ⟨fun heq _ => heq, fun hk => hk rfl⟩
    · rw [outbox_handing_of_ne s _ (Ne.symm hq)]
      exact iff_of_true hs fun heq => absurd heq hq

theorem queue_inOrder_iff {p : Ptr} {s : Server} (hnew : NewQueue p s) (ops : List QueueOp) :
    Always queueStep (fun s => (outbox p s).InOrder whole) s ops ↔
      Along queueStep (KeepsOrder p) s ops :=
  always_iff_along (I := fun _ => True) (fun _ _ _ _ _ _ _ => trivial)
    (fun _ _ _ _ hs ht => queueStep_inOrder_iff hs ht) ops trivial (hnew.inOrder whole)

end Server

namespace Client

/-- A `sendDataToServer`, or the `::send` of a write-ready pass, which takes all it is offered. -/
inductive QueueOp
  | sendDataToServer (data : Bytes)
  | writeReady

def queueStep (c : Client) : QueueOp → Option Client
  | .sendDataToServer data => some (c.sendDataToServer data)
  | .writeReady => some (c.handing (offered c.mOutgoingBytes).length)

def KeepsOrder (c : Client) : QueueOp → Prop
  | .sendDataToServer data => data ++ c.mOutgoingBytes = c.mOutgoingBytes ++ data
  | .writeReady => offered c.mOutgoingBytes = c.mOutgoingBytes

instance (c : Client) (o : QueueOp) : Decidable (KeepsOrder c o) := by
  cases o <;> unfold KeepsOrder <;> infer_instance

/-- Nothing has been queued or sent. -/
def NewQueue (c : Client) : Prop := c.outbox.pending = [] ∧ c.outbox.log = []

theorem NewQueue.inOrder {c : Client} (h : c.NewQueue) (part : Bytes → ℤ → Bytes) :
    c.outbox.InOrder part := by
  unfold Outbox.InOrder Outbox.gone Outbox.queued
  rw [h.1, h.2]
  rfl

theorem queueStep_inOrder_iff {c d : Client} {o : QueueOp} (hc : c.outbox.InOrder whole)
    (h : queueStep c o = some d) : d.outbox.InOrder whole ↔ KeepsOrder c o := by
  cases o with
  | sendDataToServer data =>
    cases h
    have hcall := outbox_call c (.sendDataToServer data)
    rw [call] at hcall
    rw [hcall.inOrder_iff, Outbox.pushAll_inOrder_iff hc]
    by_cases hlen : data.length > 0
    · simp [messages, hlen, KeepsOrder, outbox]
    · have hnil : data = [] := List.length_eq_zero_iff.mp (by omega)
      subst hnil
      simp [messages, KeepsOrder]
  | writeReady =>
    cases h
    rw [outbox_handing, Outbox.drain_inOrder_iff hc, whole_apply]
    exact Iff.rfl

theorem queue_inOrder_iff {c : Client} (hnew : c.NewQueue) (ops : List QueueOp) :
    Always queueStep (fun c => c.outbox.InOrder whole) c ops ↔ Along queueStep KeepsOrder c ops :=
  always_iff_along (I := fun _ => True) (fun _ _ _ _ _ _ _ => trivial)
    (fun _ _ _ _ hc hd => queueStep_inOrder_iff hc hd) ops trivial (hnew.inOrder whole)

end Client

/-- **The order is kept exactly in the runs in which no message is put before other bytes that
wait**, for every connection of the server and for the client. -/
theorem outgoing_inOrder_iff {p : Ptr} {s : Server} (hs : Server.NewQueue p s)
    (sops : List Server.QueueOp) {c : Client} (hc : c.NewQueue) (cops : List Client.QueueOp) :
    (Always Server.queueStep (fun s => (Server.outbox p s).InOrder whole) s sops ↔
      Along Server.queueStep (Server.KeepsOrder p) s sops) ∧
    (Always Client.queueStep (fun c => c.outbox.InOrder whole) c cops ↔
      Along Client.queueStep Client.KeepsOrder c cops) :=
  ⟨Server.queue_inOrder_iff hs sops, Client.queue_inOrder_iff hc cops⟩

/-- A client on descriptor 3, named `"a"`, right behind the constructor. -/
def smallClient : Client := .connected true [97] 3 (4, 5) ∅

theorem outgoing_inOrder_iff_greet :
    ∃ s, run Server.step (Server.waitForEvents Server.listening) Server.greet = some s ∧
      Always Server.queueStep (fun s => (Server.outbox 0 s).InOrder whole) s
        [.call (.send [104] [97]), .sendQueuedMessage 0, .call (.broadcast [105])] ∧
      Always Client.queueStep (fun c => c.outbox.InOrder whole) smallClient
        [.sendDataToServer [104], .writeReady, .sendDataToServer [105]] := by
  obtain ⟨s, hrun, hnew, hkeeps⟩ := exists_run Server.step
    (Server.waitForEvents Server.listening) Server.greet
    (fun s => Server.NewQueue 0 s ∧ Along Server.queueStep (Server.KeepsOrder 0) s
      [.call (.send [104] [97]), .sendQueuedMessage 0, .call (.broadcast [105])]) (by decide)
  have hiff := outgoing_inOrder_iff hnew
    [.call (.send [104] [97]), .sendQueuedMessage 0, .call (.broadcast [105])]
    (show smallClient.NewQueue from ⟨rfl, rfl⟩)
    [.sendDataToServer [104], .writeReady, .sendDataToServer [105]]
  exact ⟨s, hrun, hiff.1.mpr hkeeps, hiff.2.mpr (by decide)⟩

/-- **Two messages that wait together** leave in the other order, on the server and on the client.
-/
theorem outgoing_two_reversed :
    (∃ s, run Server.step (Server.waitForEvents Server.listening) Server.greet = some s ∧
      Server.NewQueue 0 s ∧ ∃ t, run Server.queueStep s [.call (.send [104] [97]),
        .call (.send [105] [97]), .sendQueuedMessage 0] = some t ∧
          (Server.outbox 0 t).gone whole = [105, 104] ∧
          ¬ (Server.outbox 0 t).InOrder whole) ∧
    smallClient.NewQueue ∧ ∃ d, run Client.queueStep smallClient [.sendDataToServer [104],
      .sendDataToServer [105], .writeReady] = some d ∧ d.outbox.gone whole = [105, 104] ∧
        ¬ d.outbox.InOrder whole := by
  constructor
  · obtain ⟨s, hrun, hnew, hany⟩ := exists_run Server.step
      (Server.waitForEvents Server.listening) Server.greet
      (fun s => Server.NewQueue 0 s ∧ (run Server.queueStep s [.call (.send [104] [97]),
        .call (.send [105] [97]), .sendQueuedMessage 0]).any (fun t => decide
          ((Server.outbox 0 t).gone whole = [105, 104] ∧ ¬ (Server.outbox 0 t).InOrder whole)) =
            true) (by decide)
    exact ⟨s, hrun, hnew, exists_run _ _ _ _ hany⟩
  · exact ⟨⟨rfl, rfl⟩, exists_run _ _ _
      (fun d : Client => d.outbox.gone whole = [105, 104] ∧ ¬ d.outbox.InOrder whole)
      (by decide)⟩

end C11Http.Posix
