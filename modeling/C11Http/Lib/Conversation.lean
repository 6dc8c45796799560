import Mathlib.Data.List.Infix

/-! # Conversations

What an observer may be told of one partner: first an opening, then any number of messages, then at
most one closing and nothing more. `Open` is a conversation that may go on.

* `Open.said`: an open conversation goes on;
* `Open.closed`: it may be closed, and is then at its end. -/

namespace C11Http.Lib

inductive Turn
  | opening
  | message
  | closing
  deriving DecidableEq

namespace Turn

/-- An opening and messages. -/
def Open (ts : List Turn) : Prop := ∃ n, ts = .opening :: List.replicate n .message

/-- An opening, messages and a closing. -/
def Closed (ts : List Turn) : Prop := ∃ us, Open us ∧ ts = us ++ [.closing]

/-- **A conversation**: an opening, messages, and a closing, as far as it has gone. -/
def Conversation (ts : List Turn) : Prop := ts = [] ∨ Open ts ∨ Closed ts

variable {ts : List Turn}

theorem Open.conversation (h : Open ts) : Conversation ts := Or.inr (Or.inl h)

theorem Closed.conversation (h : Closed ts) : Conversation ts := Or.inr (Or.inr h)

theorem open_singleton : Open [.opening] := ⟨0, rfl⟩

theorem Open.said (h : Open ts) (n : ℕ) : Open (ts ++ List.replicate n .message) := by
  obtain ⟨m, rfl⟩ := h
  refine ⟨m + n, ?_⟩
  rw [List.cons_append, List.replicate_append_replicate]

theorem Open.closed (h : Open ts) : Closed (ts ++ [.closing]) := ⟨ts, h, rfl⟩

end Turn

end C11Http.Lib
