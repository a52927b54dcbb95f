import Kpacket.Bytes
import Kpacket.KeyMap

/-!
# Packets, their classification and their headers

`packet_types.{hpp,cpp}`. Pointers are the bytes that can be read behind them, and a function is
`none` where the source reads past their end. Locals of the source that are declared without an
initialiser are arguments here (`junk`).
-/

namespace Kpacket

inductive PacketType
  | worldClientToServer
  | worldServerToClient
  | lobbyClientToServer
  | lobbyServerToClient
  | patchClientToServer
  | patchServerToClient
  | unknown
deriving DecidableEq, Repr

inductive Direction
  | incoming
  | outgoing
deriving DecidableEq, Repr

structure PacketInfo where
  timestamp : UInt64
  direction : Direction
  type : PacketType
  id : UInt16
  name : Bytes
  size : UInt32
  data : Bytes
  injected : Bool
  blocked : Bool
  chunkSize : UInt32
  sessionId : Bytes
  syncCount : UInt16
  chunkData : Bytes
deriving DecidableEq

/-! ### `PacketClassifier` -/

def worldClientPackets : List (UInt16 × Bytes) := [
  (0x000A, lit "GP_CLI_COMMAND_LOGIN"),
  (0x000B, lit "GP_CLI_COMMAND_LOGOUT"),
  (0x000C, lit "GP_CLI_COMMAND_GAMEOK"),
  (0x000D, lit "GP_CLI_COMMAND_NETEND"),
  (0x000F, lit "GP_CLI_COMMAND_CLSTAT"),
  (0x0015, lit "GP_CLI_COMMAND_POS"),
  (0x0016, lit "GP_CLI_COMMAND_CHARREQ"),
  (0x0017, lit "GP_CLI_COMMAND_CHARREQ2"),
  (0x001A, lit "GP_CLI_COMMAND_ACTION"),
  (0x001B, lit "GP_CLI_COMMAND_FRIENDPASS"),
  (0x001E, lit "GP_CLI_COMMAND_GM"),
  (0x001F, lit "GP_CLI_COMMAND_GMCOMMAND"),
  (0x0028, lit "GP_CLI_COMMAND_ITEM_DUMP"),
  (0x0029, lit "GP_CLI_COMMAND_ITEM_MOVE"),
  (0x002A, lit "GP_CLI_COMMAND_ITEM_ATTR"),
  (0x0032, lit "GP_CLI_COMMAND_ITEM_TRADE_REQ"),
  (0x0033, lit "GP_CLI_COMMAND_ITEM_TRADE_RES"),
  (0x0034, lit "GP_CLI_COMMAND_ITEM_TRADE_LIST"),
  (0x0035, lit "GP_CLI_COMMAND_ITEM_PRESENT"),
  (0x0036, lit "GP_CLI_COMMAND_ITEM_TRANSFER"),
  (0x0037, lit "GP_CLI_COMMAND_ITEM_USE"),
  (0x0038, lit "GP_CLI_COMMAND_ITEM_MAKE"),
  (0x005D, lit "GP_CLI_COMMAND_MOTION"),
  (0x00B5, lit "GP_CLI_COMMAND_CHAT_STD"),
  (0x00B6, lit "GP_CLI_COMMAND_CHAT_NAME")]

def worldServerPackets : List (UInt16 × Bytes) := [
  (0x0005, lit "GP_SERV_COMMAND_PACKETCONTROL"),
  (0x0006, lit "GP_SERV_COMMAND_NARAKU"),
  (0x0008, lit "GP_SERV_COMMAND_ENTERZONE"),
  (0x0009, lit "GP_SERV_COMMAND_MESSAGE"),
  (0x000A, lit "GP_SERV_COMMAND_LOGIN"),
  (0x000B, lit "GP_SERV_COMMAND_LOGOUT"),
  (0x000D, lit "GP_SERV_COMMAND_CHAR_PC"),
  (0x000E, lit "GP_SERV_COMMAND_CHAR_NPC"),
  (0x0011, lit "GP_SERV_COMMAND_CHAR_DEL"),
  (0x0017, lit "GP_SERV_COMMAND_CHAT_STD"),
  (0x0028, lit "GP_SERV_COMMAND_BATTLE2"),
  (0x0029, lit "GP_SERV_COMMAND_BATTLE_MESSAGE"),
  (0x001C, lit "GP_SERV_COMMAND_ITEM_MAX"),
  (0x001D, lit "GP_SERV_COMMAND_ITEM_SAME"),
  (0x001E, lit "GP_SERV_COMMAND_ITEM_NUM"),
  (0x001F, lit "GP_SERV_COMMAND_ITEM_LIST"),
  (0x0020, lit "GP_SERV_COMMAND_ITEM_ATTR"),
  (0x00D2, lit "GP_SERV_COMMAND_TROPHY_LIST"),
  (0x00D3, lit "GP_SERV_COMMAND_TROPHY_SOLUTION"),
  (0x005A, lit "GP_SERV_COMMAND_MOTIONMES")]

def lobbyPackets : List (UInt16 × Bytes) := [
  (0x0007, lit "RequestSelectChr"),
  (0x0014, lit "RequestDeleteChr"),
  (0x001F, lit "RequestGetChr"),
  (0x0021, lit "RequestCreateChr"),
  (0x0022, lit "RequestCreateChrPre"),
  (0x0024, lit "RequestQueryWorldList"),
  (0x0026, lit "RequestLobbyLogin"),
  (0x0028, lit "RequestRenameChr"),
  (0x002B, lit "RequestMoveGMChr")]

namespace PacketClassifier

def isWorldPacket (id : UInt16) : Bool := 0x0005 ≤ id && id ≤ 0x011E

def isLobbyPacket (id : UInt16) : Bool := (KeyMap.lookup id lobbyPackets).isSome

def isPatchPacket (id : UInt16) : Bool := 0x0001 ≤ id && id ≤ 0x0008

def classifyPacket (id : UInt16) (direction : Direction) : PacketType :=
  if 0x0005 ≤ id ∧ id ≤ 0x011E then
    if direction = .incoming then .worldServerToClient else .worldClientToServer
  else if (KeyMap.lookup id lobbyPackets).isSome then
    if direction = .incoming then .lobbyServerToClient else .lobbyClientToServer
  else if 0x0001 ≤ id ∧ id ≤ 0x0008 then
    if direction = .incoming then .patchServerToClient else .patchClientToServer
  else .unknown

def getPacketName (id : UInt16) : PacketType → Bytes
  | .worldClientToServer => (KeyMap.lookup id worldClientPackets).getD (lit "UNKNOWN_WORLD_CLIENT")
  | .worldServerToClient => (KeyMap.lookup id worldServerPackets).getD (lit "UNKNOWN_WORLD_SERVER")
  | .lobbyClientToServer | .lobbyServerToClient =>
    (KeyMap.lookup id lobbyPackets).getD (lit "UNKNOWN_LOBBY")
  | .patchClientToServer => lit "PATCH_CLIENT_" ++ decimal id.toNat
  | .patchServerToClient => lit "PATCH_SERVER_" ++ decimal id.toNat
  | .unknown => lit "UNKNOWN_PACKET"

theorem isWorldPacket_iff {id : UInt16} :
    isWorldPacket id = true ↔ 0x0005 ≤ id ∧ id ≤ 0x011E := by
  simp [isWorldPacket]

theorem classifyPacket_world_iff {id : UInt16} {direction : Direction} :
    classifyPacket id direction = .worldClientToServer ∨
      classifyPacket id direction = .worldServerToClient ↔ isWorldPacket id = true := by
  rw [isWorldPacket_iff, classifyPacket]
  split_ifs <;> simp_all

end PacketClassifier

/-! ### `PacketParser` -/

def le16 (b₀ b₁ : UInt8) : UInt16 := b₀.toUInt16 ||| b₁.toUInt16 <<< 8

def le32 (b₀ b₁ b₂ b₃ : UInt8) : UInt32 :=
  b₀.toUInt32 ||| b₁.toUInt32 <<< 8 ||| b₂.toUInt32 <<< 16 ||| b₃.toUInt32 <<< 24

structure WorldHeader where
  id : UInt16
  size : UInt16
  sync : UInt16
deriving DecidableEq

structure LobbyHeader where
  packetSize : UInt32
  terminator : UInt32
  command : UInt32
  identifier : Bytes
deriving DecidableEq

/-- The 28 bytes the two headers share: as they were found, or with one header stored. -/
inductive HeaderUnion
  | uninit (junk : Fin 28 → UInt8)
  | world (h : WorldHeader)
  | lobby (h : LobbyHeader)

structure PacketHeader where
  type : PacketType
  content : HeaderUnion

/-- `header.world.sync`: bytes 2 and 3 of the union, whatever was stored last. -/
def PacketHeader.worldSync (header : PacketHeader) : UInt16 :=
  match header.content with
  | .uninit junk => le16 (junk 2) (junk 3)
  | .world h => h.sync
  | .lobby h => (h.packetSize >>> 16).toUInt16

namespace PacketParser

open PacketClassifier

def parseHeader (junk : Fin 28 → UInt8) (data : Bytes) (type : PacketType) :
    Option PacketHeader :=
  if type = .worldClientToServer ∨ type = .worldServerToClient then
    match data with
    | b₀ :: b₁ :: b₂ :: b₃ :: _ =>
      let firstWord := le16 b₀ b₁
      some ⟨type, .world ⟨firstWord &&& 0x01FF, (firstWord >>> 9) &&& 0x007F, le16 b₂ b₃⟩⟩
    | _ => none
  else if type = .lobbyClientToServer ∨ type = .lobbyServerToClient then
    match data with
    | b₀ :: b₁ :: b₂ :: b₃ :: b₄ :: b₅ :: b₆ :: b₇ :: b₈ :: b₉ :: b₁₀ :: b₁₁ :: rest =>
      if 16 ≤ rest.length then
        some ⟨type, .lobby ⟨le32 b₀ b₁ b₂ b₃, le32 b₄ b₅ b₆ b₇, le32 b₈ b₉ b₁₀ b₁₁,
          rest.take 16⟩⟩
      else none
    | _ => none
  else some ⟨type, .uninit junk⟩

/-- `vector::assign(p, p + n)`. -/
def readBytes (p : Bytes) (n : UInt32) : Option Bytes :=
  if n.toNat ≤ p.length then some (p.take n.toNat) else none

/-- The sync counter is stored for world ids only. -/
def storeSync (junkHeader : Fin 28 → UInt8) (data : Bytes) (info : PacketInfo) :
    Option PacketInfo :=
  if isWorldPacket info.id then
    (parseHeader junkHeader data info.type).map fun header =>
      { info with syncCount := header.worldSync }
  else some info

def storeChunk (chunkSize : UInt32) (chunkData : Option Bytes) (info : PacketInfo) :
    Option PacketInfo :=
  match chunkData with
  | some p =>
    if 0 < chunkSize then (readBytes p chunkSize).map fun chunk => { info with chunkData := chunk }
    else some info
  | none => some info

/-- `now` is the clock reading in milliseconds, `junk` and `junkHeader` what the two locals hold
before anything is stored in them; strings and vectors start out empty. -/
def createPacketInfo (junk : PacketInfo) (junkHeader : Fin 28 → UInt8) (now : Int64)
    (id : UInt16) (size : UInt32) (data : Bytes) (direction : Direction) (injected blocked : Bool)
    (chunkSize : UInt32) (chunkData : Option Bytes) : Option PacketInfo := do
  let info := { junk with name := [], data := [], sessionId := [], chunkData := [] }
  let info := { info with timestamp := now.toUInt64 }
  let info := { info with direction := direction, id := id, size := size }
  let info := { info with data := ← readBytes data size }
  let info := { info with type := classifyPacket id direction }
  let info := { info with name := getPacketName id info.type }
  let info := { info with injected := injected, blocked := blocked, chunkSize := chunkSize }
  let info ← storeSync junkHeader data info
  let info ← storeChunk chunkSize chunkData info
  some { info with sessionId := lit "session_" ++ decimal info.timestamp.toNat }

theorem readBytes_of_le {p : Bytes} {n : UInt32} (h : n.toNat ≤ p.length) :
    readBytes p n = some (p.take n.toNat) := if_pos h

theorem parseHeader_world (junk : Fin 28 → UInt8) {data : Bytes} {type : PacketType}
    (h : type = .worldClientToServer ∨ type = .worldServerToClient) (hd : 4 ≤ data.length) :
    ∃ header, parseHeader junk data type = some header ∧
      header.worldSync = le16 (data.getD 2 0) (data.getD 3 0) := by
  match data, hd with
  | b₀ :: b₁ :: b₂ :: b₃ :: rest, _ =>
    rw [parseHeader, if_pos h]
    exact ⟨_, rfl, rfl⟩

theorem storeSync_eq {junkHeader : Fin 28 → UInt8} {data : Bytes} {info : PacketInfo}
    (ht : info.type = classifyPacket info.id info.direction) (hd : 4 ≤ data.length) :
    storeSync junkHeader data info =
      some { info with
        syncCount :=
          if isWorldPacket info.id then le16 (data.getD 2 0) (data.getD 3 0)
          else info.syncCount } := by
  unfold storeSync
  split_ifs with hw
  · obtain ⟨header, hh, hs⟩ :=
      parseHeader_world junkHeader (classifyPacket_world_iff.mpr hw) hd
    rw [ht, hh, Option.map_some, hs]
  · rfl

/-- The chunk bytes a packet gets from the two chunk arguments. -/
def chunkBytes (chunkSize : UInt32) (chunkData : Option Bytes) : Bytes :=
  (chunkData.getD []).take chunkSize.toNat

theorem storeChunk_eq {chunkSize : UInt32} {chunkData : Option Bytes} {info : PacketInfo}
    (hi : info.chunkData = []) (hc : ∀ p ∈ chunkData, chunkSize.toNat ≤ p.length) :
    storeChunk chunkSize chunkData info =
      some { info with chunkData := chunkBytes chunkSize chunkData } := by
  cases chunkData with
  | none => simp only [storeChunk, chunkBytes, Option.getD_none, List.take_nil]; rw [← hi]
  | some p =>
    simp only [storeChunk, chunkBytes, Option.getD_some]
    split_ifs with h0
    · rw [readBytes_of_le (hc p rfl)]
      rfl
    · have h0' : chunkSize.toNat = 0 := by
        simpa [UInt32.lt_iff_toNat_lt] using h0
      rw [h0', List.take_zero, ← hi]

theorem storeSync_frame {junkHeader : Fin 28 → UInt8} {data : Bytes} {info info' : PacketInfo}
    (h : storeSync junkHeader data info = some info') :
    ∃ syncCount, info' = { info with syncCount := syncCount } := by
  unfold storeSync at h
  split_ifs at h
  · obtain ⟨header, -, rfl⟩ := Option.map_eq_some_iff.mp h
    exact ⟨_, rfl⟩
  · cases h; exact ⟨_, rfl⟩

theorem storeChunk_eq_some {chunkSize : UInt32} {chunkData : Option Bytes}
    {info info' : PacketInfo} (hi : info.chunkData = [])
    (h : storeChunk chunkSize chunkData info = some info') :
    (∀ p ∈ chunkData, chunkSize.toNat ≤ p.length) ∧
      info' = { info with chunkData := chunkBytes chunkSize chunkData } := by
  have hread : ∀ p ∈ chunkData, chunkSize.toNat ≤ p.length := by
    rintro p rfl
    by_cases h0 : 0 < chunkSize
    · rw [storeChunk, if_pos h0] at h
      obtain ⟨chunk, hc, -⟩ := Option.map_eq_some_iff.mp h
      exact (Option.ite_none_right_eq_some.mp hc).1
    · have h0' : chunkSize.toNat = 0 := by simpa [UInt32.lt_iff_toNat_lt] using h0
      omega
  rw [storeChunk_eq hi hread] at h
  exact ⟨hread, (Option.some.inj h).symm⟩

theorem createPacketInfo_eq_some {junk : PacketInfo} {junkHeader : Fin 28 → UInt8} {now : Int64}
    {id : UInt16} {size : UInt32} {data : Bytes} {direction : Direction} {injected blocked : Bool}
    {chunkSize : UInt32} {chunkData : Option Bytes} {packet : PacketInfo}
    (h : createPacketInfo junk junkHeader now id size data direction injected blocked chunkSize
      chunkData = some packet) :
    size.toNat ≤ data.length ∧ (∀ p ∈ chunkData, chunkSize.toNat ≤ p.length) ∧
      ∃ syncCount, packet = {
        timestamp := now.toUInt64
        direction := direction
        type := classifyPacket id direction
        id := id
        name := getPacketName id (classifyPacket id direction)
        size := size
        data := data.take size.toNat
        injected := injected
        blocked := blocked
        chunkSize := chunkSize
        sessionId := lit "session_" ++ decimal now.toUInt64.toNat
        syncCount := syncCount
        chunkData := chunkBytes chunkSize chunkData } := by
  simp only [createPacketInfo, Option.bind_eq_bind] at h
  obtain ⟨bytes, hb, h⟩ := Option.bind_eq_some_iff.mp h
  obtain ⟨info, hs, h⟩ := Option.bind_eq_some_iff.mp h
  obtain ⟨info', hc, h⟩ := Option.bind_eq_some_iff.mp h
  obtain ⟨hsize, hb⟩ := Option.ite_none_right_eq_some.mp hb
  obtain rfl := Option.some.inj hb
  obtain ⟨syncCount, rfl⟩ := storeSync_frame hs
  obtain ⟨hchunk, rfl⟩ := storeChunk_eq_some rfl hc
  cases h
  exact ⟨hsize, hchunk, syncCount, rfl⟩

/-- With buffers long enough every field is a function of the arguments, except for the sync
counter of ids outside the world range. -/
theorem createPacketInfo_eq (junk : PacketInfo) (junkHeader : Fin 28 → UInt8) (now : Int64)
    (id : UInt16) {size : UInt32} {data : Bytes} (direction : Direction) (injected blocked : Bool)
    {chunkSize : UInt32} {chunkData : Option Bytes} (hsize : size.toNat ≤ data.length)
    (hfour : 4 ≤ data.length) (hchunk : ∀ p ∈ chunkData, chunkSize.toNat ≤ p.length) :
    createPacketInfo junk junkHeader now id size data direction injected blocked chunkSize
        chunkData =
      some {
        timestamp := now.toUInt64
        direction := direction
        type := classifyPacket id direction
        id := id
        name := getPacketName id (classifyPacket id direction)
        size := size
        data := data.take size.toNat
        injected := injected
        blocked := blocked
        chunkSize := chunkSize
        sessionId := lit "session_" ++ decimal now.toUInt64.toNat
        syncCount :=
          if isWorldPacket id then le16 (data.getD 2 0) (data.getD 3 0) else junk.syncCount
        chunkData := chunkBytes chunkSize chunkData } := by
  simp only [createPacketInfo, readBytes_of_le hsize, Option.bind_eq_bind, Option.bind_some]
  rw [storeSync_eq rfl hfour, Option.bind_some, storeChunk_eq rfl hchunk, Option.bind_some]

end PacketParser

/-- A login packet of a client, as the callbacks of the plugin get it. -/
def loginPacket : PacketInfo where
  timestamp := 1000
  direction := .outgoing
  type := .worldClientToServer
  id := 0x000A
  name := lit "GP_CLI_COMMAND_LOGIN"
  size := 4
  data := [0x0A, 0x02, 0x39, 0x30]
  injected := false
  blocked := false
  chunkSize := 2
  sessionId := lit "session_1000"
  syncCount := 0x3039
  chunkData := [1, 2]

/-- The server's answer to a logout, without a chunk. -/
def logoutPacket : PacketInfo where
  timestamp := 2000
  direction := .incoming
  type := .worldServerToClient
  id := 0x000B
  name := lit "GP_SERV_COMMAND_LOGOUT"
  size := 4
  data := [0x0B, 0x02, 0x3A, 0x30]
  injected := false
  blocked := false
  chunkSize := 0
  sessionId := lit "session_2000"
  syncCount := 0x303A
  chunkData := []

example (junk : PacketInfo) (junkHeader : Fin 28 → UInt8) :
    PacketParser.createPacketInfo junk junkHeader 1000 0x000A 4 [0x0A, 0x02, 0x39, 0x30] .outgoing
      false false 2
      (some [1, 2]) = some loginPacket := by
  rw [PacketParser.createPacketInfo_eq _ _ _ _ _ _ _ (by decide) (by decide)
    (by rintro _ ⟨⟩; decide)]
  rfl

end Kpacket
