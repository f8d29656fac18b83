import SnippetKernel.Wire.Request
import SnippetKernel.Wire.Response

/-! Where a document ends. A request is followed by a sentinel; a response ends with its connection, or as
soon as the bytes are a document. -/
namespace SnippetKernel.Wire

/-- Ends a request. A document has no line breaks, so the sentinel cannot be a part of one. -/
def sentinel : ByteArray := "\n__END__\n".toUTF8

def maxFrameSize : Nat := 64 * 1024 * 1024

/-- How many bytes a read takes at most. -/
def readSize : Nat := 4096

/-- What a peer sends: pieces as they arrive, how much of the first has been read, and whether the peer
closes its side after the last. -/
structure Feed where
  pieces : List ByteArray
  taken : Nat
  closes : Bool

namespace Feed

def ofPieces (pieces : List ByteArray) (closes : Bool) : Feed := ⟨pieces, 0, closes⟩

def total : List ByteArray → Nat
  | [] => 0
  | piece :: rest => piece.size + total rest

/-- How many bytes of the pieces have not been read. -/
def bytesLeft : List ByteArray → Nat → Nat
  | [], _ => 0
  | piece :: rest, taken => (piece.size - taken) + total rest

def unread (f : Feed) : Nat := bytesLeft f.pieces f.taken

/-- The next read: some bytes of the first piece that has any left. -/
def readPieces : List ByteArray → Nat → Option (ByteArray × List ByteArray × Nat)
  | [], _ => none
  | piece :: rest, taken =>
    if piece.size ≤ taken then readPieces rest 0
    else some (piece.extract taken (taken + readSize), piece :: rest, taken + readSize)

def read? (f : Feed) : Option (ByteArray × Feed) :=
  (readPieces f.pieces f.taken).map fun (bytes, pieces, taken) => (bytes, { f with pieces, taken })

theorem bytesLeft_cons (piece : ByteArray) (rest : List ByteArray) (taken : Nat) :
    bytesLeft (piece :: rest) taken = (piece.size - taken) + total rest := rfl

theorem bytesLeft_zero (pieces : List ByteArray) : bytesLeft pieces 0 = total pieces := by
  cases pieces <;> simp [bytesLeft, total]

theorem bytesLeft_readPieces {pieces rest : List ByteArray} {taken next : Nat} {bytes : ByteArray}
    (h : readPieces pieces taken = some (bytes, rest, next)) :
    bytesLeft rest next + bytes.size = bytesLeft pieces taken ∧ 0 < bytes.size := by
  induction pieces generalizing taken with
  | nil => simp [readPieces] at h
  | cons piece others ih =>
    simp only [readPieces] at h
    split at h
    · next used =>
      have := ih h
      rw [bytesLeft_zero] at this
      rw [bytesLeft_cons]
      omega
    · next some_left =>
      cases h
      simp only [bytesLeft_cons, ByteArray.size_extract, readSize]
      omega

theorem unread_of_read? {f g : Feed} {bytes : ByteArray} (h : f.read? = some (bytes, g)) :
    g.unread < f.unread := by
  simp only [read?, Option.map_eq_some_iff] at h
  obtain ⟨⟨b, pieces, taken⟩, found, eq⟩ := h
  cases eq
  have := bytesLeft_readPieces found
  simp only [unread]
  omega

end Feed

/-- The bytes stand at this place of a buffer. -/
def standsAt (buffer : ByteArray) (i : Nat) : List UInt8 → Bool
  | [] => true
  | b :: rest => if h : i < buffer.size then buffer[i] == b && standsAt buffer (i + 1) rest else false

def sentinelBytes : List UInt8 := sentinel.data.toList

/-- The first place from `i` on where the sentinel stands; `left` places are tried. -/
def findSentinel (buffer : ByteArray) (i : Nat) : (left : Nat) → Option Nat
  | 0 => none
  | left + 1 => if standsAt buffer i sentinelBytes then some i else findSentinel buffer (i + 1) left

/-- Why no frame came. -/
inductive NoFrame where
  /-- The peer closed without sending anything. -/
  | closed
  /-- The peer neither sent a whole frame nor closed. -/
  | silent
  | failed (f : Failure)
  deriving DecidableEq

/-- What a reader of a frame has after a read. -/
inductive Progress where
  | frame (document : ByteArray)
  | failed (f : Failure)
  /-- The sentinel has not come yet. -/
  | waiting (buffer : ByteArray)

/-- Adds what was read to what came before. What is behind the sentinel in the same read is lost; a new
sentinel can begin only in the last bytes of what came before. -/
def receive (buffer bytes : ByteArray) : Progress :=
  let first := buffer.size - (sentinel.size - 1)
  let buffer := buffer ++ bytes
  match findSentinel buffer first (buffer.size - first) with
  | some i => .frame (buffer.extract 0 i)
  | none =>
    if maxFrameSize < buffer.size then .failed (.frameTooLarge buffer.size maxFrameSize)
    else .waiting buffer

/-- Why there is no frame when nothing more comes. -/
def noFrame (buffer : ByteArray) (closed : Bool) : NoFrame :=
  if !closed then .silent
  else if buffer.size = 0 then .closed
  else
    .failed (.protocol ("incomplete frame: connection closed after " ++ toString buffer.size
      ++ " bytes without end marker"))

/-- Reads until the sentinel has come. -/
def readFrame (buffer : ByteArray) (f : Feed) : Except NoFrame ByteArray × Feed :=
  match h : f.read? with
  | none => (.error (noFrame buffer f.closes), f)
  | some (bytes, g) =>
    have := Feed.unread_of_read? h
    match receive buffer bytes with
    | .frame document => (.ok document, g)
    | .failed failure => (.error (.failed failure), g)
    | .waiting buffer => readFrame buffer g
  termination_by f.unread

/-- A request as it is sent. -/
def frame (r : Request) : ByteArray := r.text.toUTF8 ++ sentinel

/-- Bytes of a response that is coming in. -/
structure Accumulator where
  buffer : ByteArray

namespace Accumulator

def empty : Accumulator := ⟨.empty⟩

def size (a : Accumulator) : Nat := a.buffer.size

/-- Adds bytes; a response that grows too large is refused. -/
def push (a : Accumulator) (bytes : ByteArray) : Option Failure × Accumulator :=
  let buffer := a.buffer ++ bytes
  (if maxFrameSize < buffer.size then some (.frameTooLarge buffer.size maxFrameSize) else none, ⟨buffer⟩)

/-- The response, if the bytes so far are one. -/
def complete? (a : Accumulator) : Option Response :=
  if a.buffer.size = 0 then none else (Response.ofBytes a.buffer).toOption

/-- The response, or why the bytes are none. -/
def finish (a : Accumulator) : Except Failure Response := Response.ofBytes a.buffer

end Accumulator

end SnippetKernel.Wire
