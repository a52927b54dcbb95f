import Kpacket.Base64Encode
import Kpacket.JsonLibrary
import Kpacket.PacketTypes

/-!
# The messages of the PUB stream

`to_json`, `TopicForPacket` and the message building of `PublisherThread`, in its two modes: one
JSON text, or the JSON text without the payload followed by the raw bytes. `decodeFrames` is a
receiver that looks at the frames only; `message_modes` says that it cannot tell the modes apart.
-/

namespace Kpacket

/-- `ZmqRelay::Config` -/
structure Config where
  pubEndpoint : Bytes := lit "tcp://*:5555"
  repEndpoint : Bytes := lit "tcp://*:5556"
  pushEndpoint : Bytes := lit "tcp://*:5557"
  enablePacketStreaming : Bool := true
  enableCommandInterface : Bool := true
  enableReliableQueue : Bool := true
  maxQueueSize : Nat := 10000
  pubSndHwm : Int := 5000
  pubLingerMs : Int := 0
  repRcvTimeoutMs : Int := 100
  repLingerMs : Int := 0
  pushLingerMs : Int := 0
  protocolVersion : Bytes := lit "v1"
  pubUseMultipartRaw : Bool := true

/-- What stays fixed over the life of a relay: its configuration and session id, the release
version it was compiled with and the JSON library. -/
structure Env where
  config : Config
  sessionUuid : Bytes
  releaseVersion : Bytes
  json : JsonLibrary

/-- A relay with the default configuration over the reference library. -/
def defaultEnv (parseError : Bytes → Bytes) : Env where
  config := {}
  sessionUuid := lit "1700000000000"
  releaseVersion := lit "unknown"
  json := referenceJson parseError

theorem lawfulDump_defaultEnv (parseError : Bytes → Bytes) :
    LawfulDump (defaultEnv parseError).json.dump :=
  lawfulDump_compactDump _

theorem parse_dump_defaultEnv {parseError : Bytes → Bytes} {j : Json} {text : Bytes} (hp : j.Plain)
    (hd : (defaultEnv parseError).json.dump j = .ok text) :
    (defaultEnv parseError).json.parse text = .ok j := by
  simp only [defaultEnv, referenceJson, (lawfulDump_defaultEnv parseError).read hp hd]

/-! ### `to_json` -/

def directionName : Direction → Bytes
  | .incoming => lit "incoming"
  | .outgoing => lit "outgoing"

def packetTypeName : PacketType → Bytes
  | .worldClientToServer => lit "world_c2s"
  | .worldServerToClient => lit "world_s2c"
  | .lobbyClientToServer => lit "lobby_c2s"
  | .lobbyServerToClient => lit "lobby_s2c"
  | .patchClientToServer => lit "patch_c2s"
  | .patchServerToClient => lit "patch_s2c"
  | .unknown => lit "unknown"

def metadataFields (packet : PacketInfo) : List (Bytes × Json) := [
  (lit "injected", .boolean packet.injected),
  (lit "blocked", .boolean packet.blocked),
  (lit "chunk_size", .integer packet.chunkSize.toNat),
  (lit "session_id", .string packet.sessionId),
  (lit "sync_count", .integer packet.syncCount.toNat)]

def packetFields (packet : PacketInfo) : List (Bytes × Json) := [
  (lit "timestamp", .integer packet.timestamp.toNat),
  (lit "direction", .string (directionName packet.direction)),
  (lit "packet_type", .string (packetTypeName packet.type)),
  (lit "packet_id", .integer packet.id.toNat),
  (lit "packet_name", .string packet.name),
  (lit "size", .integer packet.size.toNat),
  (lit "data", .string (base64Encode packet.data)),
  (lit "metadata", Json.obj (metadataFields packet))]

def toJson (packet : PacketInfo) : Json :=
  let j := Json.obj (packetFields packet)
  if packet.chunkData ≠ [] then
    j.set (lit "chunk_data") (.string (base64Encode packet.chunkData))
  else j

/-! ### `TopicForPacket` -/

/-- `%04X` of a 16-bit number. -/
def hex4 (n : Nat) : Bytes :=
  let digit (d : Nat) : UInt8 := if d < 10 then .ofNat (48 + d) else .ofNat (55 + d)
  [digit (n / 4096 % 16), digit (n / 256 % 16), digit (n / 16 % 16), digit (n % 16)]

def topicForPacket (config : Config) (packet : PacketInfo) : Bytes :=
  let type :=
    match packet.type with
    | .worldClientToServer | .worldServerToClient => lit "world"
    | .lobbyClientToServer | .lobbyServerToClient => lit "lobby"
    | .patchClientToServer | .patchServerToClient => lit "patch"
    | .unknown => lit "unknown"
  let dir := if packet.direction = .incoming then lit "s2c" else lit "c2s"
  let hexId := lit "0x" ++ hex4 packet.id.toNat
  lit "kpacket." ++ config.protocolVersion ++ lit "." ++ type ++ lit "." ++ dir ++ lit "." ++ hexId

/-! ### Building a message -/

/-- `json_msg` of `PublisherThread`, with the id it was given. -/
def jsonMsg (env : Env) (packet : PacketInfo) (messageId : UInt64) : Json :=
  (((toJson packet).set (lit "version") (.string env.config.protocolVersion)).set
    (lit "session_uuid") (.string env.sessionUuid)).set
      (lit "message_id") (.integer messageId.toNat)

/-- `meta` of `PublisherThread`. -/
def metaOf (j : Json) : Json := (j.erase (lit "data")).erase (lit "chunk_data")

/-- The frames handed to the PUB socket, or the exception of `dump`. -/
def message (env : Env) (packet : PacketInfo) (messageId : UInt64) : Except Bytes (List Bytes) := do
  let j := jsonMsg env packet messageId
  let topic := topicForPacket env.config packet
  if env.config.pubUseMultipartRaw then
    let text ← env.json.dump (metaOf j)
    let chunk := if packet.chunkData ≠ [] then [packet.chunkData] else []
    return [topic, text, packet.data] ++ chunk
  else
    let text ← env.json.dump j
    return [topic, text]

/-! ### A receiver -/

/-- Put the payload back into the text of the raw mode. -/
def restore (m : Json) (data : Bytes) (chunk : Option Bytes) : Json :=
  let m := m.set (lit "data") (.string (base64Encode data))
  match chunk with
  | some chunk => m.set (lit "chunk_data") (.string (base64Encode chunk))
  | none => m

/-- The message of the JSON-only mode from the frames of the raw mode. -/
def rebuild : List Bytes → Option Json
  | [_, text, data] => (JsonText.read text).map fun m => restore m data none
  | [_, text, data, chunk] => (JsonText.read text).map fun m => restore m data (some chunk)
  | _ => none

structure Received where
  topic : Bytes
  version : Bytes
  sessionUuid : Bytes
  messageId : UInt64
  packet : PacketInfo
deriving DecidableEq

def packetTypes : List PacketType :=
  [.worldClientToServer, .worldServerToClient, .lobbyClientToServer, .lobbyServerToClient,
    .patchClientToServer, .patchServerToClient, .unknown]

def getNat (j : Json) (k : Bytes) : Option Nat :=
  match j.lookup k with
  | some (.integer n) => some n.toNat
  | _ => none

def getText (j : Json) (k : Bytes) : Option Bytes :=
  match j.lookup k with
  | some (.string s) => some s
  | _ => none

def getFlag (j : Json) (k : Bytes) : Option Bool :=
  match j.lookup k with
  | some (.boolean b) => some b
  | _ => none

/-- Everything but the payload. -/
def decodeMeta (topic : Bytes) (j : Json) (data chunk : Bytes) : Option Received := do
  let md ← j.lookup (lit "metadata")
  let direction ← getText j (lit "direction")
  let type ← getText j (lit "packet_type")
  return {
    topic := topic
    version := ← getText j (lit "version")
    sessionUuid := ← getText j (lit "session_uuid")
    messageId := .ofNat (← getNat j (lit "message_id"))
    packet := {
      timestamp := .ofNat (← getNat j (lit "timestamp"))
      direction := if direction = lit "incoming" then .incoming else .outgoing
      type := ← packetTypes.find? fun t => packetTypeName t = type
      id := .ofNat (← getNat j (lit "packet_id"))
      name := ← getText j (lit "packet_name")
      size := .ofNat (← getNat j (lit "size"))
      data := data
      injected := ← getFlag md (lit "injected")
      blocked := ← getFlag md (lit "blocked")
      chunkSize := .ofNat (← getNat md (lit "chunk_size"))
      sessionId := ← getText md (lit "session_id")
      syncCount := .ofNat (← getNat md (lit "sync_count"))
      chunkData := chunk } }

/-- Two frames are a JSON-only message, three or four a raw one. -/
def decodeFrames : List Bytes → Option Received
  | [topic, text] => do
    let j ← JsonText.read text
    let data ← Base64.decode (← getText j (lit "data"))
    let chunk ← Base64.decode ((getText j (lit "chunk_data")).getD [])
    decodeMeta topic j data chunk
  | [topic, text, data] => do decodeMeta topic (← JsonText.read text) data []
  | [topic, text, data, chunk] => do decodeMeta topic (← JsonText.read text) data chunk
  | _ => none

end Kpacket
