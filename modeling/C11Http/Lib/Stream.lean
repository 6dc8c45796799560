import Mathlib.Data.List.Infix

/-! # A reliable ordered stream

One direction of a connection: what has been sent and is on its way, what has arrived at the
receiver, and what the receiver has read. The network may deliver any number of elements at a time
and a read may take any number of the delivered ones, but nothing is lost, repeated or reordered:
`sent`, which is all three parts in a row, only grows, and only by what is sent (`sent_send`,
`sent_arrive`, `sent_recv`). -/

namespace C11Http.Lib

structure Stream (α : Type*) where
  transit : List α
  buffer : List α
  read : List α

namespace Stream

variable {α : Type*}

def new : Stream α := { transit := [], buffer := [], read := [] }

/-- The sender hands elements over. -/
def send (s : Stream α) (xs : List α) : Stream α := { s with transit := s.transit ++ xs }

/-- The network delivers the next `n` elements. -/
def arrive (s : Stream α) (n : ℕ) : Stream α :=
  { s with transit := s.transit.drop n, buffer := s.buffer ++ s.transit.take n }

/-- The receiver takes the next `n` elements. -/
def recv (s : Stream α) (n : ℕ) : Stream α :=
  { s with buffer := s.buffer.drop n, read := s.read ++ s.buffer.take n }

/-- Everything sent so far. -/
def sent (s : Stream α) : List α := s.read ++ s.buffer ++ s.transit

@[simp] theorem sent_send (s : Stream α) (xs : List α) : (s.send xs).sent = s.sent ++ xs := by
  simp [sent, send]

@[simp] theorem sent_arrive (s : Stream α) (n : ℕ) : (s.arrive n).sent = s.sent := by
  simp [sent, arrive]

@[simp] theorem sent_recv (s : Stream α) (n : ℕ) : (s.recv n).sent = s.sent := by
  simp [sent, recv]

@[simp] theorem read_recv (s : Stream α) (n : ℕ) :
    (s.recv n).read = s.read ++ s.buffer.take n := rfl

/-- **What is read was sent**, from the first element on and without a gap. -/
theorem read_isPrefix (s : Stream α) : s.read <+: s.sent := by
  unfold sent
  rw [List.append_assoc]
  exact List.prefix_append _ _

/-- What a receiver can take goes on where it has stopped. -/
theorem read_buffer_isPrefix (s : Stream α) : s.read ++ s.buffer <+: s.sent :=
  List.prefix_append _ _

end Stream

end C11Http.Lib
