import C11Http.Posix.Handshaking

/-! # The acknowledgement swallows no data

The buffer of the handshake holds one byte more than the acknowledgement. Still it never holds a
byte of a message, in any interleaving of the client, the server, the network and the callers of
both; and if it holds the whole acknowledgement, what the client reads later are bytes of messages
that were queued for its connection after the connection had been registered
(`ack_swallows_nothing`). -/

namespace C11Http.Posix

open C11Http.Lib C11Http.Lib.Run

namespace Session

/-- The `recv` of the handshake has read a part of the acknowledgement. If it is all of it, what is
read later is what messages queued since the registration have put into the stream. -/
structure SwallowsNothing (s : Session) : Prop where
  handshake : s.ackBuff <+: ack.map (Origin.ack, ·)
  data : s.ackBuff.map Prod.snd = ack → s.clientRead = [] ∨
    ∃ (p : Ptr) (n : ℕ) (bytes : Bytes), s.serverStage = .built p (some n) ∧
      s.clientRead = bytes.map (Origin.message, ·) ∧ bytes.Subperm (s.queuedSince p n)

variable {s : Session}

/-- With the whole acknowledgement read, the rest of the stream is what the connection has sent. -/
theorem Handshaking.clientRead (h : s.Handshaking) (hack : s.ackBuff.map Prod.snd = ack) :
    s.clientRead <+: s.appData.map (Origin.message, ·) := by
  obtain ⟨acknowledgement, hd⟩ := h.down
  have hlen : s.ackBuff.length = ack.length := by rw [← hack, List.length_map]
  have hwhole : s.ackBuff = acknowledgement.map (Origin.ack, ·) := by
    refine hd.ackBuff.eq_of_length_le ?_
    rw [List.length_map, hlen]
    exact hd.acknowledges.length_le
  obtain ⟨rest, hrest⟩ := h.ackRead
  have hread : s.clientRead = rest := by
    unfold Session.clientRead
    rw [← hrest, List.drop_left]
  have hpre : s.ackBuff ++ rest <+: s.ackBuff ++ s.appData.map (Origin.message, ·) := by
    have hsent := s.down.read_isPrefix
    rwa [hd.sent, ← hwhole, ← hrest] at hsent
  rw [hread]
  exact (List.prefix_append_right_inj _).mp hpre

/-- What the connection has sent was queued for it after it had been registered. -/
theorem Handshaking.appData (h : s.Handshaking) : s.appData = [] ∨
    ∃ p n, s.serverStage = .built p (some n) ∧ s.appData.Subperm (s.queuedSince p n) := by
  by_cases hnot : ∀ p registered, s.serverStage ≠ .built p registered
  · exact Or.inl (appData_of_not_built hnot)
  · push Not at hnot
    obtain ⟨p, registered, hbuilt⟩ := hnot
    have hdata : s.appData = (Server.outbox p s.server).gone taken := by
      unfold Session.appData
      rw [hbuilt]
      rfl
    rcases registered with _ | n
    · left
      obtain ⟨-, hlog⟩ := h.server.unregistered p hbuilt
      rw [hdata, Outbox.gone, hlog]
      rfl
    · right
      obtain ⟨-, hnil⟩ := h.server.registered p n hbuilt
      have hqueued : (Server.outbox p s.server).queued = s.queuedSince p n := by
        have hsplit := List.take_append_drop n s.server.trace
        unfold Outbox.queued Server.outbox queuedSince
        conv_lhs => rw [← hsplit, List.filterMap_append, hnil, List.nil_append]
      refine ⟨p, n, hbuilt, ?_⟩
      rw [hdata, ← hqueued]
      exact (h.server.sourced p).gone_subperm

theorem Handshaking.swallowsNothing (h : s.Handshaking) : s.SwallowsNothing where
  handshake := by
    obtain ⟨acknowledgement, hd⟩ := h.down
    exact hd.ackBuff.trans (hd.acknowledges.map _)
  data hack := by
    have hread := h.clientRead hack
    rcases h.appData with hnil | ⟨p, n, hbuilt, hsub⟩
    · rw [hnil, List.map_nil, List.prefix_nil] at hread
      exact Or.inl hread
    · right
      obtain ⟨bytes, hpre, hmap⟩ := List.prefix_map_iff.mp hread
      exact ⟨p, n, bytes, hbuilt, hmap, hpre.sublist.subperm.trans hsub⟩

end Session

/-- **The acknowledgement swallows no data**, in any run of the client and the server. -/
theorem Session.ack_swallows_nothing (setup : Server.Setup) (client : Client)
    (as : List Session.Action) :
    Always Session.step Session.SwallowsNothing (Session.start setup client) as :=
  (always_of_inv (P := Session.Handshaking) (fun _ _ _ h ht => Session.handshaking_step h ht) as
    (Session.handshaking_start setup client)).imp fun _ h => h.swallowsNothing

end C11Http.Posix
