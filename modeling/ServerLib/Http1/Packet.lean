import Mathlib.Data.List.DropRight
import ServerLib.Lib.Decimal
import ServerLib.Http1.Headers

/-!
The parser of a request.  The head is read in four stages: the method, the target, the version and
the header lines.  A stage that does not find its end leaves the bytes where they are and is tried
again with more of them.  After the head, the header lines say how long the body is.
-/

namespace ServerLib.Http1

open Lib

def space : UInt8 := ' '.toUInt8

def cr : UInt8 := '\r'.toUInt8

def lf : UInt8 := '\n'.toUInt8

def colon : UInt8 := ':'.toUInt8

/-- The bytes of a buffer from its read offset on. -/
structure Input where
  offset : Nat
  readable : Bytes

namespace Input

def consume (buff : Input) (size : Nat) : Input :=
  { offset := buff.offset + min size buff.readable.length
    readable := buff.readable.drop size }

/-- What a buffer is after `compact`. -/
def ofBytes (bytes : Bytes) : Input := { offset := 0, readable := bytes }

end Input

structure Limits where
  maxHeaderLength : Nat
  clientMaxContentLength : Nat

def isHeaderOws (ch : UInt8) : Bool := ch = space ∨ ch = '\t'.toUInt8

def trimmed (t : Bytes) : Bytes := (t.dropWhile isHeaderOws).rdropWhile isHeaderOws

def tokens (value : Bytes) : List Bytes := (value.splitOn ','.toUInt8).map trimmed

def tokenEqualsCi (token : Bytes) (expected : String) : Bool := lowered token = text expected

def transferEncodingHasChunked (value : Bytes) : Bool :=
  (tokens value).any fun token => tokenEqualsCi token "chunked"

inductive ContentLength where
  | missing
  | valid (length : Nat)
  | invalid

def parseContentLengthHeader (headers : Headers) : ContentLength :=
  match headers.getHeader Slot.contentLength.name with
  | none => .missing
  | some length =>
    if trimmed length = [] ∨ (trimmed length).all isDigit = false then .invalid
    else if digitsValue (trimmed length) < 2 ^ 32 then .valid (digitsValue (trimmed length))
    else .invalid

inductive HttpMethod where
  | get | post | put | delete | options | head | comment | trace | patch | propfind | proppatch
  | mkcol | copy | move | lock | unlock | report | acl | search
deriving DecidableEq

inductive HttpVersion where
  | v10 | v11 | v20 | v30

/-- The states in which a call of the parser can begin and end. -/
inductive HeaderState where
  | tooLong | init | methodGap | urlGap | versionNewline | headerEndLines
deriving DecidableEq

inductive BodyState where
  | init | empty | partly | attachment | fully | tooLong
deriving DecidableEq

/-- The file that a large body is written to; it is closed when the body is complete. -/
structure BodyFile where
  expected : Nat
  bytes : Bytes
  isOpen : Bool

structure Packet where
  headerState : HeaderState
  bodyState : BodyState
  /-- no method is `invalid_` -/
  method : Option HttpMethod
  target : Target
  version : HttpVersion
  headers : Headers
  connectionCloseRequested : Bool
  connectionKeepAliveRequested : Bool
  bodyLength : Nat
  isDownloadFile : Bool
  bodyFile : Option BodyFile

namespace Packet

variable (packet : Packet)

/-- The text of the target is the only field that `reset` leaves as it is. -/
def reset : Packet :=
  { headerState := .init
    bodyState := .init
    method := none
    target := { url := packet.target.url, queryPos := none, params := [] }
    version := .v11
    headers := Headers.empty
    connectionCloseRequested := false
    connectionKeepAliveRequested := false
    bodyLength := 0
    isDownloadFile := false
    bodyFile := none }

def initial : Packet :=
  { headerState := .init
    bodyState := .init
    method := none
    target := { url := [], queryPos := none, params := [] }
    version := .v11
    headers := Headers.empty
    connectionCloseRequested := false
    connectionKeepAliveRequested := false
    bodyLength := 0
    isDownloadFile := false
    bodyFile := none }

def isHeaderDone : Bool := packet.headerState = .headerEndLines

def isBodyDone : Bool := packet.bodyState = .fully ∨ packet.bodyState = .empty

def done (packet : Packet) : Bool :=
  packet.isHeaderDone && (packet.isBodyDone || packet.isDownloadFile)

def isChunked : Bool :=
  match packet.headers.getHeader Slot.transferEncoding.name with
  | some value => transferEncodingHasChunked value
  | none => false

def noteConnectionHeader (value : Bytes) : Packet :=
  if value = text "keep-alive" then { packet with connectionKeepAliveRequested := true }
  else if value = text "close" then { packet with connectionCloseRequested := true }
  else
    { packet with
      connectionCloseRequested := packet.connectionCloseRequested ||
        (tokens value).any fun token => tokenEqualsCi token "close"
      connectionKeepAliveRequested := packet.connectionKeepAliveRequested ||
        (tokens value).any fun token => tokenEqualsCi token "keep-alive" }

def addLine (packet : Packet) (line : Line) : Packet :=
  let packet := if canonicalHeaderKey line.1 = some .connection
    then packet.noteConnectionHeader line.2 else packet
  { packet with headers := packet.headers.addLine line }

end Packet

/-- The end of a stage: whether it found what it reads. -/
structure Stage where
  ok : Bool
  packet : Packet
  buff : Input

def Stage.andThen (stage : Stage) (next : Packet → Input → Stage) : Stage :=
  if stage.ok then next stage.packet stage.buff else stage

def upper (ch : UInt8) : UInt8 :=
  if 'a'.toUInt8 ≤ ch ∧ ch ≤ 'z'.toUInt8 then ch - ('a'.toUInt8 - 'A'.toUInt8) else ch

def methodNames : List (Bytes × HttpMethod) :=
  [(text "GET", .get), (text "PUT", .put), (text "ACL", .acl), (text "POST", .post),
    (text "HEAD", .head), (text "COPY", .copy), (text "MOVE", .move), (text "LOCK", .lock),
    (text "TRACE", .trace), (text "PATCH", .patch), (text "MKCOL", .mkcol),
    (text "DELETE", .delete), (text "UNLOCK", .unlock), (text "REPORT", .report),
    (text "SEARCH", .search), (text "OPTIONS", .options), (text "COMMENT", .comment),
    (text "PROPFIND", .propfind), (text "PROPPATCH", .proppatch)]

/-- The method and the number of bytes it takes. -/
def readMethod (data : Bytes) : Option (HttpMethod × Nat) :=
  let token := data.takeWhile (· ≠ space)
  if space ∉ data ∨ token = [] ∨ token.length > 16 then none
  else (methodNames.lookup (token.map upper)).map fun method => (method, token.length + 1)

def versionNames : List (Bytes × HttpVersion) :=
  [(text "1.0", .v10), (text "1.1", .v11), (text "2.0", .v20), (text "3.0", .v30)]

/-- The version and the number of bytes it takes, up to the end of the line. -/
def readVersion (data : Bytes) : Option (HttpVersion × Nat) :=
  let token := data.takeWhile (· ≠ cr)
  if cr ∉ data ∨ token.length < 6 ∨ lowered (token.take 4) ≠ text "http" ∨
      token[4]? ≠ some slash ∨ data[token.length + 1]? ≠ some lf then none
  else (versionNames.lookup (token.drop 5)).map fun version => (version, token.length + 2)

/-- One blank in front of a value is left out. -/
def skipBlank : Bytes → Bytes
  | c :: value => if isHeaderOws c then value else c :: value
  | [] => []

/-- A line without its line feed.  It has to end with a carriage return; the empty line is the
last one, and every other line has a key. -/
def headerLine (line : Bytes) : Option (Option Line) :=
  if line.getLast? ≠ some cr then none
  else if line.dropLast = [] then some none
  else if colon ∉ line.dropLast ∨ line.head? = some colon then none
  else some (some (line.dropLast.takeWhile (· ≠ colon),
    skipBlank (line.dropLast.dropWhile (· ≠ colon)).tail))

/-- The loop of `parse_header_keys`, with the bytes from `offset` on; `line` is the line that has
begun. -/
def readLines (limits : Limits) (packet : Packet) (offset : Nat) (line : Bytes) : Bytes → Stage
  | [] => { ok := false, packet, buff := { offset, readable := [] } }
  | c :: data =>
    if c = lf then
      if offset > limits.maxHeaderLength then
        { ok := false, packet, buff := { offset, readable := c :: data } }
      else
        match headerLine line with
        | none => { ok := false, packet, buff := { offset, readable := c :: data } }
        | some none => { ok := true, packet, buff := { offset := offset + 1, readable := data } }
        | some (some headerLine) =>
          readLines limits (packet.addLine headerLine) (offset + 1) [] data
    else readLines limits packet (offset + 1) (line ++ [c]) data

namespace Packet

/-- (The source looks for a leading `GET` first, which gives the same.) -/
def parseMethod (packet : Packet) (buff : Input) : Stage :=
  match readMethod buff.readable with
  | none => { ok := false, packet, buff }
  | some (method, size) =>
    { ok := true, packet := { packet with method := some method }, buff := buff.consume size }

/-- (A target that is not accepted is stored by the source, too.  It stays in front of the buffer,
so that it is not accepted later on either.) -/
def parseTarget (limits : Limits) (packet : Packet) (buff : Input) : Stage :=
  match parseUrl limits.maxHeaderLength buff.offset buff.readable with
  | none => { ok := false, packet, buff }
  | some target =>
    { ok := true
      packet := { packet with
        target := { target with params := packet.target.params ++ target.params } }
      buff := buff.consume ((buff.readable.takeWhile (· ≠ space)).length + 1) }

def parseVersion (packet : Packet) (buff : Input) : Stage :=
  match readVersion buff.readable with
  | none => { ok := false, packet, buff }
  | some (version, size) =>
    { ok := true, packet := { packet with version }, buff := buff.consume size }

/-- Lines that were read before an incomplete one are forgotten, but not what they say about the
connection. -/
def parseHeaderKeys (limits : Limits) (packet : Packet) (buff : Input) : Stage :=
  let stage := readLines limits packet buff.offset [] buff.readable
  if stage.ok then stage
  else { stage with packet := { stage.packet with headers := Headers.empty } }

end Packet

variable (limits : Limits) (packet : Packet)

variable (buff : Input)

/-- A stage ends with a look at the number of bytes read so far. -/
def checkLength : Stage :=
  if buff.offset > limits.maxHeaderLength then
    { ok := false, packet := { packet with headerState := .tooLong }, buff }
  else { ok := true, packet, buff }

/-- A stage of `parse_header`.  If it fails, the buffer is as before. -/
def stageOf (here next : HeaderState) (read : Packet → Input → Stage) (packet : Packet)
    (buff : Input) : Stage :=
  if packet.headerState = here then
    if (read packet buff).ok then
      checkLength limits { (read packet buff).packet with headerState := next }
        (read packet buff).buff
    else { ok := false, packet := (read packet buff).packet, buff }
  else checkLength limits packet buff

def parseHeader : Stage :=
  (((stageOf limits .init .methodGap Packet.parseMethod packet buff).andThen
    (stageOf limits .methodGap .urlGap (Packet.parseTarget limits))).andThen
    (stageOf limits .urlGap .versionNewline Packet.parseVersion)).andThen
    (stageOf limits .versionNewline .headerEndLines (Packet.parseHeaderKeys limits))

/-- The end of a call of `parse`: 1 if the packet is complete, 0 if more bytes are needed, -1 and
-2 for an error (an incomplete head is reported as -1, too). -/
structure Parsed where
  result : Int
  packet : Packet
  buff : Input

def parsableContentTypes : List Bytes :=
  [text "text/plain", text "text/html", text "text/javascript", text "text/css",
    text "multipart/form-data", text "multipart/byteranges", text "application/json",
    text "application/x-www-form-urlencoded"]

namespace Packet

def shouldSpoolRequestBody (packet : Packet) (length : Nat) : Bool :=
  length > 64 * 1024 ∧ packet.method = some .put

/-- `begin_body_file_spool`, in a file system that can create a file. -/
def beginBodyFileSpool (packet : Packet) (length : Nat) : BodyFile :=
  match packet.bodyFile with
  | some file => if file.isOpen then file else { expected := length, bytes := [], isOpen := true }
  | none => { expected := length, bytes := [], isOpen := true }

end Packet

def BodyFile.append (file : BodyFile) (data : Bytes) : BodyFile :=
  if data = [] then file
  else
    { file with
      bytes := file.bytes ++ data
      isOpen := file.bytes.length + data.length < file.expected }

def BodyFile.spoolDone (file : BodyFile) : Bool :=
  file.expected > 0 ∧ file.bytes.length ≥ file.expected

def spoolBody (length : Nat) (buff : Input) : Parsed :=
  let file := packet.beginBodyFileSpool length
  let toWrite := min (length - file.bytes.length) buff.readable.length
  let written := file.append (buff.readable.take toWrite)
  let packet := { packet with bodyFile := some written }
  if written.spoolDone then
    { result := 1, packet := { packet with bodyState := .fully }, buff := buff.consume toWrite }
  else
    { result := 0, packet := { packet with bodyState := .partly }, buff := buff.consume toWrite }

/-- A body of a known length. -/
def parseLength (length : Nat) (buff : Input) : Parsed :=
  if length = 0 then { result := 1, packet := { packet with bodyState := .empty }, buff }
  else if packet.shouldSpoolRequestBody length then spoolBody packet length buff
  else if length > limits.clientMaxContentLength then
    { result := -2, packet := { packet with bodyState := .tooLong }, buff }
  else if buff.readable.length < length then
    { result := 0, packet := { packet with bodyState := .partly }, buff }
  else
    let packet := { packet with bodyState := .fully }
    match packet.headers.getHeader (text "content-disposition") with
    | some _ => { result := -1, packet, buff }
    | none =>
      match packet.headers.getHeader Slot.contentType.name with
      | some contentType =>
        { result := 1
          packet := { packet with
            isDownloadFile := packet.isDownloadFile || contentType ∉ parsableContentTypes }
          buff }
      | none => { result := 1, packet, buff }

/-- How long the body is. -/
def parseFraming : Parsed :=
  if packet.headers.bodyRelatedHeaderPresent = false then
    { result := 1, packet := { packet with bodyState := .empty }, buff }
  else
    match parseContentLengthHeader packet.headers,
        packet.headers.getHeader Slot.transferEncoding.name with
    | .invalid, _ => { result := -1, packet, buff }
    | .valid _, some _ => { result := -1, packet, buff }
    | .missing, some _ =>
      if packet.isChunked then
        { result := 1, packet := { packet with bodyState := .empty }, buff }
      else { result := -1, packet, buff }
    | .valid length, none =>
      parseLength limits { packet with bodyLength := length } length buff
    | .missing, none => parseLength limits packet 0 buff

namespace Packet

def parse (limits : Limits) (packet : Packet) (buff : Input) : Parsed :=
  if packet.done then { result := -2, packet := { packet with bodyState := .tooLong }, buff }
  else
    let stage := if packet.isHeaderDone then { ok := true, packet, buff }
      else parseHeader limits packet buff
    if stage.ok = false then { result := -1, packet := stage.packet, buff := stage.buff }
    else if stage.packet.headerState = .tooLong then
      { result := -2, packet := stage.packet, buff := stage.buff }
    else if stage.packet.isHeaderDone then parseFraming limits stage.packet stage.buff
    else
      { result := if stage.packet.isBodyDone then 1 else 0
        packet := stage.packet
        buff := stage.buff }

end Packet

end ServerLib.Http1
