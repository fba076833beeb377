import WordTape.Bytes

/-!
# Streams

A program reads from one stream and writes to another. A stream is given by its
behaviour, which says how each request in turn is answered, together with an
account of the requests made so far. Requests can fail, and input need not end.
-/

set_option autoImplicit false

namespace WordTape

inductive Reply where
  | byte (value : UInt8)
  | endOfInput
  | failure (reason : Bytes)
deriving DecidableEq, Repr

structure Input where
  /-- The answer to each request, requests counted from zero. -/
  reply : Nat → Reply
  requests : Nat := 0
  consumed : Nat := 0

namespace Input

def ofBytes (data : Array UInt8) : Input where
  reply request :=
    match data[request]? with
    | some byte => .byte byte
    | none => .endOfInput

/-- The stream in which every request fails once `limit` bytes were delivered, and
which otherwise delivers the given bytes and then ends. -/
def failingAfter (limit : Nat) (reason : Bytes) (data : Array UInt8) : Input where
  reply request :=
    if limit ≤ min request data.size then .failure reason
    else (ofBytes data).reply request

def read (input : Input) : Reply × Input :=
  let answer := input.reply input.requests
  let delivered := match answer with
    | .byte _ => 1
    | .endOfInput | .failure _ => 0
  (answer,
    { input with requests := input.requests + 1, consumed := input.consumed + delivered })

end Input

structure Output where
  /-- Why each write is refused, if it is; writes are counted from zero. -/
  refusal : Nat → Option Bytes := fun _ => none
  /-- Why each flush is refused, if it is; flushes are counted from zero. -/
  flushRefusal : Nat → Option Bytes := fun _ => none
  writes : Nat := 0
  flushes : Nat := 0
  chunks : Array Bytes := #[]

namespace Output

/-- The behaviour of writes of which the first `limit` are accepted. -/
def refusingAfter (limit : Nat) (reason : Bytes) (write : Nat) : Option Bytes :=
  if write < limit then none else some reason

def write (output : Output) (chunk : Bytes) : Option Bytes × Output :=
  match output with
  | { refusal, flushRefusal, writes, flushes, chunks } =>
      match refusal writes with
      | some reason =>
          (some reason, { refusal, flushRefusal, writes := writes + 1, flushes, chunks })
      | none =>
          (none,
            { refusal, flushRefusal, writes := writes + 1, flushes
              chunks := chunks.push chunk })

def flush (output : Output) : Option Bytes × Output :=
  (output.flushRefusal output.flushes, { output with flushes := output.flushes + 1 })

def text (output : Output) : Bytes :=
  output.chunks.toList.flatten

end Output

end WordTape
