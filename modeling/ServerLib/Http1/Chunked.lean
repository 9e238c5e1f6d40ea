import ServerLib.Http1.Packet

/-!
The parser of a chunked body.  Each call appends the new bytes to those it could not use before and
goes through them phase by phase, until they are used up or the rest of a line is missing.
-/

namespace ServerLib.Http1

open Lib

def semicolon : UInt8 := ';'.toUInt8

inductive ParsePhase where
  | readSize | readData | readDataCrlf | readTrailer | done | error
deriving DecidableEq

inductive ChunkState where
  | completed | needMore | invalidChunk
deriving DecidableEq

def hexValue (digits : Bytes) : Nat :=
  digits.foldl (fun value c => value * 16 + (hexVal c).getD 0) 0

def isxdigit (ch : UInt8) : Bool := (hexVal ch).isSome

def maxChunkSize : Nat := 1024 * 1024 * 1024

def diskSpillSize : Nat := 1024 * 1024

def maxSizeBufLength : Nat := 16

structure ChunkedContentParser where
  phase : ParsePhase
  totalBytes : Nat
  remainBytes : Nat
  sizeBuf : Bytes
  pendingBuffer : Bytes
  memBuffer : Bytes
  /-- what was written to `file_stream_`, if there is one -/
  fileStream : Option Bytes
  trailerChecksum : Bytes

/-- The end of an iteration: the loop goes on with the bytes that are left, or it ends and keeps
them. -/
inductive Turn where
  | next (parser : ChunkedContentParser) (data : Bytes)
  | wait (parser : ChunkedContentParser) (data : Bytes)

namespace ChunkedContentParser

def initial : ChunkedContentParser :=
  { phase := .readSize
    totalBytes := 0
    remainBytes := 0
    sizeBuf := []
    pendingBuffer := []
    memBuffer := []
    fileStream := none
    trailerChecksum := [] }

variable (parser : ChunkedContentParser)

def sized : ChunkedContentParser :=
  if parser.sizeBuf = [] ∨ hexValue parser.sizeBuf > maxChunkSize then
    { parser with phase := .error }
  else
    { parser with
      sizeBuf := []
      remainBytes := hexValue parser.sizeBuf
      phase := if hexValue parser.sizeBuf = 0 then .readTrailer else .readData }

/-- (In an extension without an end the source goes one byte back, to the last one.) -/
def readSize : Bytes → Turn
  | [] => .wait parser []
  | ch :: data =>
    if ch = cr then
      if data.head? = some lf then .next parser.sized data.tail
      else .wait parser (ch :: data)
    else if isxdigit ch then
      if parser.sizeBuf.length ≥ maxSizeBufLength then .next { parser with phase := .error } data
      else .next { parser with sizeBuf := parser.sizeBuf ++ [ch] } data
    else if ch = semicolon then
      if cr ∈ data then .next parser (data.dropWhile (· ≠ cr))
      else .wait parser [(ch :: data).getLast (List.cons_ne_nil ch data)]
    else .next { parser with phase := .error } data

def written (bytes : Bytes) : ChunkedContentParser :=
  match parser.fileStream with
  | some content => { parser with fileStream := some (content ++ bytes) }
  | none => { parser with memBuffer := parser.memBuffer ++ bytes }

/-- A long body is moved to a file (in a file system that can create one). -/
def spilled : ChunkedContentParser :=
  if parser.fileStream = none ∧ parser.totalBytes > diskSpillSize then
    { parser with fileStream := some parser.memBuffer, memBuffer := [] }
  else parser

def readData (clientMaxContentLength : Nat) (parser : ChunkedContentParser) (data : Bytes) : Turn :=
  let toRead := min data.length parser.remainBytes
  let parser := parser.written (data.take toRead)
  if toRead > 0 ∧ parser.totalBytes + toRead > clientMaxContentLength then
    .next { parser with phase := .error } data
  else
    .next
      (spilled
        { parser with
          totalBytes := parser.totalBytes + toRead
          remainBytes := parser.remainBytes - toRead
          phase := if parser.remainBytes - toRead = 0 then .readDataCrlf else .readData })
      (data.drop toRead)

variable (data : Bytes) (clientMaxContentLength : Nat)

def readDataCrlf : Turn :=
  if data.head? = some cr ∧ data.tail.head? = some lf then
    .next { parser with phase := .readSize } data.tail.tail
  else if data.head? = some cr then .wait parser data
  else .next { parser with phase := .error } data

/-- What is left of a trailer after its text: the end of the line, if it is there. -/
def afterLine : Bytes → Bytes
  | c :: data =>
    if c = cr then
      if data.head? = some lf then data.tail else data
    else c :: data
  | [] => []

def readTrailer : Turn :=
  if data.head? = some cr ∧ data.tail.head? = some lf then
    .next { parser with phase := .done } data.tail.tail
  else
    let parser := { parser with
      trailerChecksum := parser.trailerChecksum ++ lowered (data.takeWhile (· ≠ cr)) }
    if afterLine (data.dropWhile (· ≠ cr)) = [] then .wait parser []
    else .next parser (afterLine (data.dropWhile (· ≠ cr)))

def turn (parser : ChunkedContentParser) (data : Bytes) : Turn :=
  match parser.phase with
  | .readSize => parser.readSize data
  | .readData => parser.readData clientMaxContentLength data
  | .readDataCrlf => parser.readDataCrlf data
  | .readTrailer => parser.readTrailer data
  | .done | .error => .next { parser with phase := .error } data

def finish : ChunkState × ChunkedContentParser :=
  (match parser.phase with
    | .error => .invalidChunk
    | .done => .completed
    | _ => .needMore,
    { parser with pendingBuffer := data })

def feedLoop (clientMaxContentLength : Nat) :
    Nat → ChunkedContentParser → Bytes → ChunkState × ChunkedContentParser
  | 0, parser, data => parser.finish data
  | limit + 1, parser, data =>
    if data = [] ∨ parser.phase = .done ∨ parser.phase = .error then parser.finish data
    else
      match parser.turn clientMaxContentLength data with
      | .wait parser data => (.needMore, { parser with pendingBuffer := data })
      | .next parser data => feedLoop clientMaxContentLength limit parser data

/-- An iteration uses at least one byte. -/
def feedData (parser : ChunkedContentParser) : ChunkState × ChunkedContentParser :=
  feedLoop clientMaxContentLength (parser.pendingBuffer.length + 1) parser parser.pendingBuffer

/-- The file is removed after an error. -/
def parseChunked (parser : ChunkedContentParser) (incoming : Bytes) :
    ChunkState × ChunkedContentParser :=
  let parser := { parser with pendingBuffer := parser.pendingBuffer ++ incoming }
  if parser.pendingBuffer = [] then (.needMore, parser)
  else
    let fed := parser.feedData clientMaxContentLength
    if fed.1 = .invalidChunk then (fed.1, { fed.2 with fileStream := none })
    else fed

/-- The decoded bytes, in the file or in memory. -/
def content : Bytes := parser.fileStream.getD parser.memBuffer

end ChunkedContentParser

end ServerLib.Http1
