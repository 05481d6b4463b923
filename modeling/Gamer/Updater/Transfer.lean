import Gamer.Lib.SemVer
import Gamer.Updater.Files

/-! `transfer::download`: a file is fetched in as many calls as it takes. What is there of it is
    vouched for by a receipt, a file of its own, and asked for no second time:

        receipt, length ─▶ complete? ─▶ request (Range, If-Range) ─▶ 200: from the start
                                                                     206: from where it stands
            ─▶ open ─▶ write the receipt ─▶ read, write … ─▶ sync ─▶ digest

    The server answers as it likes; the files are written one effect after the other, and a run may
    be cut off before any of them. A receipt is renamed into place, so it is there or not. -/

namespace Gamer.Updater.Transfer
open Gamer.Lib Gamer.Lib.Prog

structure Receipt where
  url : String
  sha256 : String
  size : Nat
  etag : Option String
  deriving DecidableEq

/-- The file that is fetched, and the file with its receipt, which may not parse. -/
structure Disk where
  dest : Option Bytes
  receipt : Option (Option Receipt)

structure Call where
  url : String
  hash : String
  size : Nat

/-- What of the request depends on the files: `Range` from an offset on, and `If-Range`. -/
structure Request where
  range : Option Nat
  ifRange : Option String

/-- The headers that are looked at, and what the reads of the body come to. -/
structure Response where
  status : Nat
  contentRange : Option String := none
  etag : Option String := none
  contentLength : Option String := none
  body : List (Except String Bytes)

inductive HttpError where
  | status (code : Nat)
  | transport (text : String)

inductive DownloadError where
  | paused
  | invalidRange
  | invalidUrl (url : String)
  | httpStatus (code : Nat)
  | oversizedContentLength (declared expected : Nat)
  | oversizedBody (limit : Nat)
  | truncated (received expected : Nat)
  | hashMismatch (actual expected : String)
  | timeout
  | io (text : String)
  | transport (text : String)
  deriving DecidableEq

/-- What the environment answers to an effect: whether it succeeds, what a failed write leaves,
    whether the transfer is paused or the time is over, and how the server would respond. -/
structure Answer where
  ok : Bool := true
  text : String := ""
  kept : Nat := 0
  paused : Bool := false
  late : Bool := false
  respond : Request → Except HttpError Response

abbrev Step (α : Type) := Prog Answer Disk (Except DownloadError α)

/-! ### Headers -/

/-- `url.starts_with("https://") || url.starts_with("http://")`. -/
def isHttp (url : String) : Bool :=
  "https://".toList.isPrefixOf url.toList || "http://".toList.isPrefixOf url.toList

/-- `str::parse::<u64>`. -/
def parseU64 (s : String) : Option Nat :=
  let digits := match s.toList with
    | '+' :: rest => rest
    | cs => cs
  if digits ≠ [] ∧ digits.all Char.isDigit ∧ SemVer.value digits < 2 ^ 64 then
    some (SemVer.value digits)
  else none

def contentRange (offset size : Nat) : String :=
  "bytes " ++ toString offset ++ "-" ++ toString (size - 1) ++ "/" ++ toString size

/-- An entity tag that does not start with `W/`. -/
def strongTag (etag : Option String) : Option String :=
  etag.filter fun s => !"W/".toList.isPrefixOf s.toList

section
variable (c : Call)

/-- How much of the file is vouched for. -/
def resumeOffset (receipt : Option Receipt) (length : Option Nat) : Nat :=
  match receipt, length with
  | some r, some n =>
    if r.url = c.url ∧ r.sha256 = c.hash ∧ r.size = c.size ∧ n ≤ c.size then n else 0
  | _, _ => 0

def request (receipt : Option Receipt) (offset : Nat) : Request :=
  if offset > 0 then ⟨some offset, receipt.bind (·.etag)⟩ else ⟨none, none⟩

/-- Both tags are there and differ. -/
def tagChanged (receipt : Option Receipt) (r : Response) : Bool :=
  match receipt.bind (·.etag), r.etag with
  | some previous, some current => previous ≠ current
  | _, _ => false

/-- Where the body belongs, as far as the status and the range say. -/
def bodyOffset (receipt : Option Receipt) (offset : Nat) (r : Response) :
    Except DownloadError Nat :=
  if r.status = 200 then .ok 0
  else if r.status = 206 ∧ offset > 0 then
    if r.contentRange ≠ some (contentRange offset c.size) then .error .invalidRange
    else if tagChanged receipt r then .error .invalidRange
    else .ok offset
  else .error .invalidRange

/-- A `Content-Length` has to be what is missing. -/
def checkLength (offset : Nat) (r : Response) : Except DownloadError Nat :=
  match r.contentLength.bind parseU64 with
  | none => .ok offset
  | some length =>
    if length > c.size - offset then .error (.oversizedContentLength length (c.size - offset))
    else if length < c.size - offset then .error (.truncated (offset + length) c.size)
    else .ok offset

def acceptResponse (receipt : Option Receipt) (offset : Nat) (r : Response) :
    Except DownloadError Nat :=
  match bodyOffset c receipt offset r with
  | .error x => .error x
  | .ok offset => checkLength c offset r

end

/-! ### The steps -/

/-- The receipt, if it can be read and parses. -/
def readReceipt : Prog Answer Disk (Option Receipt) := Prog.effect fun e d =>
  (if e.ok then d.receipt.join else none, d)

/-- The length of the file, if there is one. -/
def destLength : Prog Answer Disk (Option Nat) := Prog.effect fun e d =>
  (if e.ok then d.dest.map List.length else none, d)

/-- `fs::remove_file` of the receipt, whose result nobody looks at. -/
def removeReceipt : Prog Answer Disk Unit := Prog.effect fun e d =>
  ((), if e.ok then { d with receipt := none } else d)

def removeDest : Prog Answer Disk Unit := Prog.effect fun e d =>
  ((), if e.ok then { d with dest := none } else d)

def sendRequest (req : Request) : Step Response := Prog.effect fun e d =>
  (match e.respond req with
    | .ok r => .ok r
    | .error (.status code) => .error (.httpStatus code)
    | .error (.transport text) => .error (.transport text), d)

/-- The file is opened: at its end, or from the start, which empties it. -/
def openDest (offset : Nat) : Step Unit := Prog.effect fun e d =>
  if e.ok then
    (.ok (), { d with dest := if offset = 0 then some [] else some (d.dest.getD []) })
  else (.error (.io e.text), d)

/-- `write_json_atomic` of the receipt. -/
def writeReceipt (r : Receipt) : Step Unit := Prog.effect fun e d =>
  if e.ok then (.ok (), { d with receipt := some (some r) }) else (.error (.io e.text), d)

def Disk.append (d : Disk) (bytes : Bytes) : Disk := { d with dest := d.dest.map (· ++ bytes) }

section
variable (sha256 : Bytes → String) (c : Call)

/-- One round of the loop: a read, and the write of what it gives. -/
def transfer (offset : Nat) (read : Except String Bytes) : Step Unit := Prog.effect fun e d =>
  if e.paused then (.error .paused, d)
  else if e.late then (.error .timeout, d)
  else match read with
    | .error text => (.error (.io text), d)
    | .ok chunk =>
      if chunk = [] then (.ok (), d)
      else if chunk.length > c.size - offset then (.error (.oversizedBody c.size), d)
      else if e.ok then (.ok (), d.append chunk)
      else (.error (.io e.text), d.append (chunk.take e.kept))

/-- The end of the body. -/
def bodyEnd (offset : Nat) : Step Unit :=
  if offset = c.size then Prog.give (.ok ())
  else Prog.give (.error (.truncated offset c.size))

/-- The loop over the reads. No bytes are the end. -/
def pump (offset : Nat) : List (Except String Bytes) → Step Unit
  | [] => (transfer c offset (.ok [])).andThen fun _ => bodyEnd c offset
  | .error text :: _ => (transfer c offset (.error text)).andThen fun _ => bodyEnd c offset
  | .ok chunk :: rest => (transfer c offset (.ok chunk)).andThen fun _ =>
      if chunk = [] then bodyEnd c offset else pump (offset + chunk.length) rest

def syncDest : Step Unit := Prog.effect fun e d =>
  (if e.ok then .ok () else .error (.io e.text), d)

/-- A file that cannot be right is removed, and its receipt. -/
def discard (x : DownloadError) : Step Nat :=
  (removeDest >>= fun _ => removeReceipt >>= fun _ => Prog.give (.error x) :
    Prog Answer Disk (Except DownloadError Nat))

def isOversized : DownloadError → Bool
  | .oversizedBody _ => true
  | _ => false

/-- `sha256_file_hex` of the file. -/
def digestDest : Step String := Prog.effect fun e d =>
  match e.ok, d.dest with
  | true, some content => (.ok (sha256 content), d)
  | _, _ => (.error (.io e.text), d)

def succeed : Step Nat :=
  (removeReceipt >>= fun _ => Prog.give (.ok c.size) : Prog Answer Disk (Except DownloadError Nat))

/-- What follows the loop. -/
def finish (result : Except DownloadError Unit) : Step Nat :=
  syncDest.andThen fun _ =>
  match result with
  | .error x => if isOversized x then discard x else Prog.give (.error x)
  | .ok () => (digestDest sha256).andThen fun actual =>
    if Files.asciiLowercase actual ≠ Files.asciiLowercase c.hash then
      discard (.hashMismatch actual c.hash)
    else succeed c

/-- `verify_file` of a file that is as long as it should be. -/
def verifyDest : Prog Answer Disk Bool := Prog.effect fun e d =>
  (match d.dest with
    | none => false
    | some content => e.ok && content.length = c.size &&
        sha256 content = Files.asciiLowercase c.hash, d)

/-- The file is asked for from the offset on. -/
def fetch (receipt : Option Receipt) (offset : Nat) : Step Nat :=
  (sendRequest (request receipt offset)).andThen fun r =>
  match acceptResponse c receipt offset r with
  | .error x => Prog.give (.error x)
  | .ok offset =>
    (openDest offset).andThen fun _ =>
    (writeReceipt ⟨c.url, c.hash, c.size, strongTag r.etag⟩).andThen fun _ =>
    (pump c offset r.body : Prog Answer Disk (Except DownloadError Unit)) >>=
      fun result => finish sha256 c result

/-- `is_paused` before anything is done. -/
def checkPaused : Step Unit := Prog.effect fun e d =>
  (if e.paused then .error .paused else .ok (), d)

/-- `download`. -/
def download : Step Nat :=
  if !isHttp c.url then Prog.give (.error (.invalidUrl c.url))
  else
    checkPaused.andThen fun _ =>
    ((readReceipt >>= fun receipt => destLength >>= fun length =>
      if resumeOffset c receipt length = c.size then
        verifyDest sha256 c >>= fun complete =>
        if complete then succeed c else fetch sha256 c receipt 0
      else fetch sha256 c receipt (resumeOffset c receipt length)) :
      Prog Answer Disk (Except DownloadError Nat))

end

end Gamer.Updater.Transfer
