import Mathlib.Data.Nat.Digits.Defs
import Scaler.Collections.Dict
import Scaler.Ymq.WebSocketStream

/-! The HTTP upgrade at the start of a `WebSocketStream`. A failed assertion is `none`. -/

namespace Scaler.Ymq.WebSocket

open Collections

/-- The bytes of an ASCII text. -/
def ascii (text : String) : Bytes := text.toList.map fun c => c.toNat.toUInt8

section Utils

def rotl (x : UInt32) (n : UInt32) : UInt32 := (x <<< n) ||| (x >>> (32 - n))

/-- The message filled up to whole blocks of 64 bytes, with its length in bits at the end. -/
def padMessage (input : Bytes) : Bytes :=
  let filled := (120 - (input.length + 1) % 64) % 64
  input ++ 0x80 :: List.replicate filled 0 ++ bigEndian 8 (input.length * 8)

/-- The words `w[0]` to `w[79]` of a block. -/
def messageSchedule (block : Bytes) : Array UInt32 :=
  let first := (List.range 16).map fun i => (ofBigEndian ((block.drop (i * 4)).take 4)).toUInt32
  (List.range 64).foldl (fun w j =>
    let i := j + 16
    w.push (rotl (w.getD (i - 3) 0 ^^^ w.getD (i - 8) 0 ^^^ w.getD (i - 14) 0 ^^^ w.getD (i - 16) 0) 1))
    first.toArray

structure Sha1State where
  a : UInt32
  b : UInt32
  c : UInt32
  d : UInt32
  e : UInt32

def sha1Round (w : Array UInt32) (s : Sha1State) (i : Nat) : Sha1State :=
  let fk : UInt32 × UInt32 :=
    if i < 20 then ((s.b &&& s.c) ||| (~~~ s.b &&& s.d), 0x5A827999)
    else if i < 40 then (s.b ^^^ s.c ^^^ s.d, 0x6ED9EBA1)
    else if i < 60 then ((s.b &&& s.c) ||| (s.b &&& s.d) ||| (s.c &&& s.d), 0x8F1BBCDC)
    else (s.b ^^^ s.c ^^^ s.d, 0xCA62C1D6)
  let temp := rotl s.a 5 + fk.1 + s.e + fk.2 + w.getD i 0
  ⟨temp, s.a, rotl s.b 30, s.c, s.d⟩

def sha1Block (h : Sha1State) (block : Bytes) : Sha1State :=
  let s := (List.range 80).foldl (sha1Round (messageSchedule block)) h
  ⟨h.a + s.a, h.b + s.b, h.c + s.c, h.d + s.d, h.e + s.e⟩

def sha1 (input : Bytes) : Bytes :=
  let msg := padMessage input
  let h := ((List.range (msg.length / 64)).map fun i => (msg.drop (i * 64)).take 64).foldl sha1Block
    ⟨0x67452301, 0xEFCDAB89, 0x98BADCFE, 0x10325476, 0xC3D2E1F0⟩
  [h.a, h.b, h.c, h.d, h.e].flatMap fun x => bigEndian 4 x.toNat

def alphabet : Bytes := ascii "ABCDEFGHIJKLMNOPQRSTUVWXYZabcdefghijklmnopqrstuvwxyz0123456789+/"

/-- The letter of the six bits of `val` above the `shift` lowest ones. -/
def letter (val : UInt32) (shift : Nat) : UInt8 :=
  alphabet.getD ((val >>> shift.toUInt32) &&& 0x3F).toNat 0

/-- The inner loop of `base64Encode`: letters as long as there are six bits. -/
def emitLetters (val : UInt32) : Nat → Int × Bytes → Int × Bytes
  | 0, r => r
  | n + 1, (valb, result) =>
    if 0 ≤ valb then emitLetters val n (valb - 6, result ++ [letter val valb.toNat]) else (valb, result)

/-- The outer loop: `val` holds the bits that were read, `valb` counts those not written yet. -/
def encodeByte (s : UInt32 × Int × Bytes) (c : UInt8) : UInt32 × Int × Bytes :=
  let val := (s.1 <<< 8) ||| c.toUInt32
  let r := emitLetters val 2 (s.2.1 + 8, s.2.2)
  (val, r.1, r.2)

def base64Encode (data : Bytes) : Bytes :=
  let (val, valb, result) := data.foldl encodeByte (0, -6, [])
  let result := if -6 < valb then result ++ [letter (val <<< 8) (valb + 8).toNat] else result
  result ++ List.replicate ((4 - result.length % 4) % 4) 61

/-- `std::tolower` in the C locale. -/
def lowerByte (c : UInt8) : UInt8 := if 65 ≤ c ∧ c ≤ 90 then c + 32 else c

def toLower (s : Bytes) : Bytes := s.map lowerByte

/-- The key is made of 16 random bytes. -/
def generateWebSocketKey (keyBytes : { bytes : Bytes // bytes.length = 16 }) : Bytes :=
  base64Encode keyBytes.val

def computeWebSocketAccept (key : Bytes) : Bytes :=
  base64Encode (sha1 (key ++ ascii "258EAFA5-E914-47DA-95CA-C5AB0DC85B11"))

/-- `std::string_view::find`: where the first occurrence begins. -/
def find (needle : Bytes) : Bytes → Option Nat
  | [] => if needle = [] then some 0 else none
  | byte :: rest =>
    if needle.isPrefixOf (byte :: rest) then some 0 else (find needle rest).map (· + 1)

def crlf : Bytes := ascii "\r\n"

def blankLine : Bytes := ascii "\r\n\r\n"

/-- A header line is entered under its name in lower case. -/
def addHeader (result : Dict Bytes Bytes) (line : Bytes) : Dict Bytes Bytes :=
  match find (ascii ":") line with
  | none => result
  | some colon =>
    result.set (toLower (line.take colon)) ((line.drop (colon + 1)).dropWhile fun c => c = 32 ∨ c = 9)

/-- The loop of `extractHeaders`; every round takes a line, so what is left has length at
most `n`. -/
def extractLines : Nat → Bytes → Dict Bytes Bytes → Dict Bytes Bytes
  | 0, _, result => result
  | n + 1, rest, result =>
    if rest = [] then result
    else
      match find crlf rest with
      | none => addHeader result rest
      | some lineEnd => extractLines n (rest.drop (lineEnd + 2)) (addHeader result (rest.take lineEnd))

def extractHeaders (headers : Bytes) : Dict Bytes Bytes :=
  match find crlf headers with
  | none => Dict.empty
  | some pos => extractLines headers.length (headers.drop (pos + 2)) Dict.empty

end Utils

section Messages

/-- `std::to_string`. -/
def decimal (n : Nat) : Bytes :=
  if n = 0 then [48] else (Nat.digits 10 n).reverse.map fun d => (48 + d).toUInt8

def buildClientUpgradeRequest (host : Bytes) (port : UInt16) (path key : Bytes) : Bytes :=
  ascii "GET " ++ path ++ ascii " HTTP/1.1\r\n" ++ ascii "Host: " ++ host ++ ascii ":" ++
    decimal port.toNat ++ ascii "\r\n" ++ ascii "Upgrade: websocket\r\n" ++
    ascii "Connection: Upgrade\r\n" ++ ascii "Sec-WebSocket-Key: " ++ key ++ ascii "\r\n" ++
    ascii "Sec-WebSocket-Version: 13\r\n" ++ ascii "\r\n"

def buildServerUpgradeResponse (key : Bytes) : Bytes :=
  ascii "HTTP/1.1 101 Switching Protocols\r\n" ++ ascii "Upgrade: websocket\r\n" ++
    ascii "Connection: Upgrade\r\n" ++ ascii "Sec-WebSocket-Accept: " ++ computeWebSocketAccept key ++
    ascii "\r\n" ++ ascii "\r\n"

/-- What `finishClientUpgrade` checks; the result is where the headers end. -/
def checkResponse (response key : Bytes) : Option Nat := do
  let headersEnd ← find blankLine response
  let headers := response.take headersEnd
  guard ((ascii "HTTP/1.1 101").isPrefixOf headers = true)
  let accept ← (extractHeaders headers).get? (ascii "sec-websocket-accept")
  guard (accept = computeWebSocketAccept key)
  return headersEnd

/-- What `finishServerUpgrade` checks; the result is the key and where the headers end. -/
def checkRequest (request : Bytes) : Option (Bytes × Nat) := do
  let headersEnd ← find blankLine request
  let headers := request.take headersEnd
  let firstLineEnd ← find crlf headers
  let requestLine := headers.take firstLineEnd
  guard ((ascii "GET ").isPrefixOf requestLine = true ∧ (ascii " HTTP/1.1").isSuffixOf requestLine = true)
  let headerMap := extractHeaders headers
  let upgrade ← headerMap.get? (ascii "upgrade")
  let key ← headerMap.get? (ascii "sec-websocket-key")
  let connection ← headerMap.get? (ascii "connection")
  let version ← headerMap.get? (ascii "sec-websocket-version")
  guard (toLower upgrade = ascii "websocket")
  guard ((find (ascii "upgrade") (toLower connection)).isSome = true)
  guard (version = ascii "13")
  return (key, headersEnd)

end Messages

/-- 64 KB. -/
def maxUpgradeHeaderSize : Nat := 64 * 1024

/-- A `WebSocketStream` before its upgrade is complete. `reading` is whether the transport
reads, `writing` whether the request or the response is being written, and `results` are the
calls of the upgrade callback. -/
structure Upgrade where
  role : Role
  key : Bytes
  recvBuffer : Bytes
  reading : Bool
  writing : Bool
  upgradeCallback : Bool
  results : List (Except UvError Unit)
  written : List Bytes

namespace Upgrade

variable (s : Upgrade)

def completeUpgrade (result : Except UvError Unit) : Option Upgrade :=
  if s.upgradeCallback then
    some { s with upgradeCallback := false, results := s.results ++ [result] }
  else none

/-- A write of the transport that fails at once, or not. -/
def transportWrite (data : Bytes) (error : Option UvError) : Option Upgrade :=
  match error with
  | some e => s.completeUpgrade (.error e)
  | none => some { s with written := s.written ++ [data], writing := true }

/-- `accept`, with a callback, when the transport starts to read. -/
def accept : Upgrade := ⟨.server, [], [], true, false, true, [], []⟩

/-- `upgradeAsClient` with the key it draws. -/
def upgradeAsClient (host : Bytes) (port : UInt16) (path key : Bytes) (error : Option UvError) :
    Option Upgrade :=
  transportWrite ⟨.client, key, [], false, false, true, [], []⟩
    (buildClientUpgradeRequest host port path key) error

def finishServerUpgrade (error : Option UvError) : Option Upgrade :=
  let s := { s with reading := false }
  match checkRequest s.recvBuffer with
  | none => s.completeUpgrade (.error .eproto)
  | some (key, headersEnd) =>
    { s with recvBuffer := s.recvBuffer.drop (headersEnd + 4) }.transportWrite
      (buildServerUpgradeResponse key) error

def finishClientUpgrade : Option Upgrade :=
  let s := { s with reading := false }
  match checkResponse s.recvBuffer s.key with
  | none => s.completeUpgrade (.error .eproto)
  | some headersEnd => { s with recvBuffer := s.recvBuffer.drop (headersEnd + 4) }.completeUpgrade (.ok ())

/-- The read callback of either side; `error` is what the write of the response returns. -/
def onRead (result : Except UvError Bytes) (error : Option UvError) : Option Upgrade :=
  match result with
  | .error e => { s with reading := false }.completeUpgrade (.error e)
  | .ok data =>
    let s := { s with recvBuffer := s.recvBuffer ++ data }
    if maxUpgradeHeaderSize < s.recvBuffer.length then
      { s with reading := false }.completeUpgrade (.error .eproto)
    else if (find blankLine s.recvBuffer).isSome then
      if s.role = .server then s.finishServerUpgrade error else s.finishClientUpgrade
    else some s

/-- The write callback: a server is done, a client starts to read. -/
def onWritten (result : Except UvError Unit) : Option Upgrade :=
  let s := { s with writing := false }
  match result with
  | .error e => s.completeUpgrade (.error e)
  | .ok () => if s.role = .server then s.completeUpgrade (.ok ()) else some { s with reading := true }

/-- The transport reads one piece after the other while reading is on; the rest waits. -/
def readPieces : Upgrade → List Bytes → Option (Upgrade × List Bytes)
  | s, [] => some (s, [])
  | s, data :: pieces =>
    if s.reading then do
      let s ← s.onRead (.ok data) none
      readPieces s pieces
    else some (s, data :: pieces)

/-- The stream that the upgrade leaves. -/
def stream : WebSocketStream := ⟨s.role, s.recvBuffer, [], false, [], []⟩

end Upgrade

end Scaler.Ymq.WebSocket
