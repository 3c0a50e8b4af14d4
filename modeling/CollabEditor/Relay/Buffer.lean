import Mathlib.Algebra.GroupWithZero.Nat
import CollabEditor.Support.Base64
/-!
# The update buffer

`internal/relay/buffer.go`. Every method of `UpdateBuffer` holds the buffer's
mutex, so each is one atomic step of a run.
-/

namespace CollabEditor.Relay

open Support

structure BufferedUpdate where
  sequence : UInt64
  data : List UInt8
  clientID : UInt64
  createdAt : Nat
  deriving DecidableEq

structure UpdatePayload where
  sequence : UInt64
  data : List Char
  clientID : UInt64
  createdAt : Nat
  deriving DecidableEq

def dataSize (updates : List BufferedUpdate) : Nat :=
  (updates.map fun u => u.data.length).sum

@[simp] lemma dataSize_append (xs ys : List BufferedUpdate) :
    dataSize (xs ++ ys) = dataSize xs + dataSize ys := by
  simp [dataSize]

/-- The buffer. `size` is maintained by the methods and always is the size of
the buffered data; `seq` is the sequence number given out last. -/
structure UpdateBuffer where
  updates : List BufferedUpdate
  size : Nat
  seq : UInt64
  size_eq : size = dataSize updates

namespace UpdateBuffer

def new : UpdateBuffer := ⟨[], 0, 0, rfl⟩

def next (b : UpdateBuffer) (data : List UInt8) (clientID : UInt64) (now : Nat) :
    BufferedUpdate :=
  ⟨b.seq + 1, data, clientID, now⟩

def append (b : UpdateBuffer) (data : List UInt8) (clientID : UInt64) (now : Nat) :
    UpdateBuffer where
  updates := b.updates ++ [b.next data clientID now]
  size := b.size + data.length
  seq := b.seq + 1
  size_eq := by simp [b.size_eq, dataSize, next]

def drain (b : UpdateBuffer) : List BufferedUpdate × UpdateBuffer :=
  if b.updates = [] then ([], b)
  else (b.updates, { updates := [], size := 0, seq := b.seq, size_eq := rfl })

def prepend (b : UpdateBuffer) (updates : List BufferedUpdate) : UpdateBuffer where
  updates := updates ++ b.updates
  size := b.size + dataSize updates
  seq := b.seq
  size_eq := by simp [b.size_eq, Nat.add_comm]

def len (b : UpdateBuffer) : Nat := b.updates.length

@[simp] lemma drain_fst (b : UpdateBuffer) : b.drain.1 = b.updates := by
  unfold drain
  split
  · rename_i h
    exact h.symm
  · rfl

end UpdateBuffer

def toPayload (u : BufferedUpdate) : UpdatePayload :=
  ⟨u.sequence, Base64.encode u.data, u.clientID, u.createdAt⟩

def toPayloads (updates : List BufferedUpdate) : List UpdatePayload :=
  updates.map toPayload

end CollabEditor.Relay
