import Kpacket.FromJson
import Kpacket.Monitor

/-!
# The console monitor

`MonitorPackets` of the plain client: `ProcessPacket` prints a line for each message and now and
then the statistics. `processPacket_reports` says what one message comes to, `Accounts` what a whole
run has printed and counted, `Paced` when it reports, by the clock of the arrivals, and
`printed_delivered` that for the messages of a relay these are the lines of their packets.
-/

namespace Kpacket

open Lts Storing

/-- What the client uses of its libraries; `localTime` is `%H:%M:%S` of a time in milliseconds,
unless `localtime` has no answer. -/
structure ConsoleLibrary extends JsonConversions where
  localTime : UInt64 → Option Bytes

/-- What `ShowStatistics` prints, the rate with all its digits. -/
structure Statistics where
  runtime : Int
  packetsReceived : UInt64
  rate : Rat

inductive Printed
  | packet (line : Bytes)
  | flags (line : Bytes)
  | statistics (s : Statistics)
  | processingError (what : Bytes)
  | monitorError (what : Bytes)

/-- The steady clock as it is read, in nanoseconds: for the first `last_stats`, for `now`, and by
`ShowStatistics`. -/
structure Readings where
  first : Int
  now : Int
  shown : Int
deriving DecidableEq

/-- Of the members and the output of `PacketMonitor`. -/
structure Console where
  packetsReceived : UInt64 := 0
  startTime : Int
  lastStats : Option Int := none
  printed : List Printed := []

namespace Console

def print (c : Console) (p : Printed) : Console := { c with printed := c.printed ++ [p] }

def second : Int := 1000000000

def statistics (c : Console) (now : Int) : Statistics :=
  let runtime := (now - c.startTime).tdiv second
  { runtime := runtime
    packetsReceived := c.packetsReceived
    rate := if runtime > 0 then (c.packetsReceived.toNat : Rat) / runtime else 0 }

def showStatistics (c : Console) (now : Int) : Console := c.print (.statistics (c.statistics now))

/-- The part of `ProcessPacket` behind its lines; `last_stats` is static. -/
def periodic (c : Console) (clock : Readings) : Console :=
  let lastStats := c.lastStats.getD clock.first
  if clock.now - lastStats > 10 * second then
    { c.showStatistics clock.shown with lastStats := some clock.now }
  else { c with lastStats := some lastStats }

end Console

/-! ### `ProcessPacket` -/

/-- `std::hex` with four digits. -/
def hexLower4 (n : Nat) : Bytes :=
  [JsonText.hexChar (n / 4096 % 16), JsonText.hexChar (n / 256 % 16),
    JsonText.hexChar (n / 16 % 16), JsonText.hexChar (n % 16)]

/-- What `ProcessPacket` prints of a packet. -/
structure Described where
  timestamp : UInt64
  direction : Bytes
  packetId : UInt16
  packetName : Bytes
  size : UInt32

def Described.line (d : Described) (time : Bytes) : Bytes :=
  time ++ lit " [" ++ d.direction ++ lit "] 0x" ++ hexLower4 d.packetId.toNat ++ lit " (" ++
    d.packetName ++ lit ") Size: " ++ decimal d.size.toNat ++ lit " bytes"

def flagsLine (injected blocked : Bool) : Bytes :=
  lit "  -> Flags: " ++ (if injected then lit "INJECTED " else []) ++
    (if blocked then lit "BLOCKED " else [])

section

variable (lib : ConsoleLibrary)

/-- The lookups before the line is printed; they leave null behind for a key that is missing. -/
def describe (packet : Json) : Outcome (Described × Json) := do
  let (timestamp, packet) ← index packet (lit "timestamp")
  let timestamp ← getUInt64 lib.doubleToUInt64 timestamp
  let (direction, packet) ← index packet (lit "direction")
  let direction ← getString direction
  let (packetType, packet) ← index packet (lit "packet_type")
  let _ ← getString packetType
  let (packetId, packet) ← index packet (lit "packet_id")
  let packetId ← lib.getUInt16 packetId
  let (packetName, packet) ← index packet (lit "packet_name")
  let packetName ← getString packetName
  let (size, packet) ← index packet (lit "size")
  let size ← lib.getUInt32 size
  return (⟨timestamp, direction, packetId, packetName, size⟩, packet)

/-- The lookups behind it, on a copy of the metadata. -/
def readFlags (packet : Json) : Outcome (Bool × Bool) := do
  let (metadata, _) ← index packet (lit "metadata")
  let (injected, metadata) ← index metadata (lit "injected")
  let injected ← getBool injected
  let (blocked, _) ← index metadata (lit "blocked")
  let blocked ← getBool blocked
  return (injected, blocked)

/-- `std::put_time(std::localtime(&time_t), …)` -/
def putTime (timestamp : UInt64) : Outcome Bytes :=
  match lib.localTime timestamp with
  | some time => .done time
  | none => .undefined

/-- The `try` block of `ProcessPacket`. -/
def processBody (clock : Readings) (jsonData : Bytes) : Storing Console Unit := do
  let packet ← Outcome.ofExcept (lib.parse jsonData)
  let (d, packet) ← describe lib packet
  let time ← putTime lib d.timestamp
  store fun c => c.print (.packet (d.line time))
  let (injected, blocked) ← readFlags packet
  store fun c => if injected || blocked then c.print (.flags (flagsLine injected blocked)) else c
  store fun c => c.periodic clock

def processPacket (clock : Readings) (jsonData : Bytes) : Storing Console Unit := fun c =>
  match processBody lib clock jsonData c with
  | (.raised what, c) => (.done (), c.print (.processingError what))
  | result => result

/-! ### `MonitorPackets` -/

/-- What one turn of the loop meets; `running` is read again where an exception is caught. -/
inductive Arrival
  | nothing
  | multipart (frames : List Bytes) (clock : Readings)
  | thrown (what : Bytes) (running : Bool)

def monitorTurn : Arrival → Storing Console Unit
  | .nothing => pure ()
  | .multipart (_ :: jsonData :: _) clock => do
    processPacket lib clock jsonData
    store fun c => { c with packetsReceived := c.packetsReceived + 1 }
  | .multipart _ _ => pure ()
  | .thrown what running => store fun c => if running then c.print (.monitorError what) else c

def monitorPackets : List Arrival → Storing Console Unit
  | [] => pure ()
  | a :: rest => do
    monitorTurn lib a
    monitorPackets rest

/-! ### What is printed -/

/-- The reading of a text, up to the first line. -/
def parsed (jsonData : Bytes) : Outcome (Described × Json) := do
  let packet ← Outcome.ofExcept (lib.parse jsonData)
  describe lib packet

/-- The lines that come from the text of a message. -/
def packetLines (jsonData : Bytes) : List Printed :=
  match parsed lib jsonData with
  | .raised what => [.processingError what]
  | .undefined => []
  | .done (d, packet) =>
    match lib.localTime d.timestamp with
    | none => []
    | some time => .packet (d.line time) ::
      match readFlags packet with
      | .raised what => [.processingError what]
      | .undefined => []
      | .done (injected, blocked) =>
        if injected || blocked then [.flags (flagsLine injected blocked)] else []

/-- The times in a text have a local time. -/
def TimesKnown (jsonData : Bytes) : Prop :=
  ∀ d packet, parsed lib jsonData = .done (d, packet) → (lib.localTime d.timestamp).isSome = true

def linesOf : Arrival → List Printed
  | .multipart (_ :: jsonData :: _) _ => packetLines lib jsonData
  | .thrown what running => if running then [.monitorError what] else []
  | _ => []

end

/-- The clock, if the text is read up to the statistics. -/
def timing (lib : ConsoleLibrary) (clock : Readings) (jsonData : Bytes) : Option Readings :=
  match parsed lib jsonData with
  | .done (_, packet) =>
    match readFlags packet with
    | .done _ => some clock
    | _ => none
  | _ => none

def Arrival.timed (lib : ConsoleLibrary) : Arrival → Option Readings
  | .multipart (_ :: jsonData :: _) clock => timing lib clock jsonData
  | _ => none

/-- The arrival counts as a packet. -/
def Arrival.counts : Arrival → Bool
  | .multipart (_ :: _ :: _) _ => true
  | _ => false

section

variable {lib : ConsoleLibrary}

theorem getUInt64_ne_undefined (ofDouble : Rat → UInt64) (j : Json) :
    getUInt64 ofDouble j ≠ .undefined := by
  cases j <;> simp [getUInt64]

theorem JsonConversions.getUInt32_ne_undefined (lib : JsonConversions) (j : Json) :
    lib.getUInt32 j ≠ .undefined := by
  cases j <;> simp [JsonConversions.getUInt32]

theorem getBool_ne_undefined (j : Json) : getBool j ≠ .undefined := by
  cases j <;> simp [getBool]

theorem describe_ne_undefined (packet : Json) : describe lib packet ≠ .undefined := by
  simp [describe, Outcome.bind_eq_undefined, index_ne_undefined, getUInt64_ne_undefined,
    getString_ne_undefined, JsonLibrary.getUInt16_ne_undefined,
    JsonConversions.getUInt32_ne_undefined, Outcome.pure_ne_undefined]

theorem readFlags_ne_undefined (packet : Json) : readFlags packet ≠ .undefined := by
  simp [readFlags, Outcome.bind_eq_undefined, index_ne_undefined, getBool_ne_undefined,
    Outcome.pure_ne_undefined]

/-- What a message does to the console: its lines, and if it comes to the statistics, with its
clock, perhaps a report on those before it. -/
structure Reports (c c' : Console) (lines : List Printed) (timed : Option Readings)
    (report : Option Statistics) : Prop where
  printed : c'.printed = c.printed ++ lines ++ report.toList.map .statistics
  counted : ∀ s ∈ report, s.packetsReceived = c.packetsReceived
  packetsReceived : c'.packetsReceived = c.packetsReceived
  untimed : timed = none → report = none ∧ c'.lastStats = c.lastStats
  due : ∀ clock ∈ timed, report.isSome = true →
    c.lastStats.getD clock.first + 10 * Console.second < clock.now ∧ c'.lastStats = some clock.now
  early : ∀ clock ∈ timed, report = none →
    clock.now ≤ c.lastStats.getD clock.first + 10 * Console.second ∧
      c'.lastStats = some (c.lastStats.getD clock.first)

namespace Reports

variable {c c' c'' : Console} {lines lines' : List Printed} {timed : Option Readings}
  {report : Option Statistics}

theorem refl (c : Console) : Reports c c [] none none :=
  ⟨by simp, by simp, rfl, fun _ => ⟨rfl, rfl⟩, by simp, by simp⟩

theorem print (c : Console) (p : Printed) : Reports c (c.print p) [p] none none :=
  ⟨by simp [Console.print], by simp, rfl, fun _ => ⟨rfl, rfl⟩, by simp, by simp⟩

theorem trans (h : Reports c c' lines none none) (h' : Reports c' c'' lines' timed report) :
    Reports c c'' (lines ++ lines') timed report := by
  have hlast := (h.untimed rfl).2
  refine ⟨?_, fun s hs => (h'.counted s hs).trans h.packetsReceived,
    h'.packetsReceived.trans h.packetsReceived, ?_, ?_, ?_⟩
  · rw [h'.printed, h.printed]
    simp
  · rw [← hlast]
    exact h'.untimed
  · rw [← hlast]
    exact h'.due
  · rw [← hlast]
    exact h'.early

theorem periodic (c : Console) (clock : Readings) :
    ∃ report, Reports c (c.periodic clock) [] (some clock) report := by
  unfold Console.periodic
  dsimp only
  split_ifs with h
  · refine ⟨some (c.statistics clock.shown), ?_, ?_, rfl, nofun, ?_, nofun⟩
    · simp [Console.showStatistics, Console.print]
    · simp [Console.statistics]
    · rintro _ ⟨⟩ -
      exact ⟨by omega, rfl⟩
  · refine ⟨none, by simp, by simp, rfl, nofun, nofun, ?_⟩
    rintro _ ⟨⟩ -
    exact ⟨by omega, rfl⟩

end Reports

theorem processPacket_reports {jsonData : Bytes} (hk : TimesKnown lib jsonData) (clock : Readings)
    (c : Console) : ∃ c' report, processPacket lib clock jsonData c = (.done (), c') ∧
      Reports c c' (packetLines lib jsonData) (timing lib clock jsonData) report := by
  have hraised : ∀ (c' : Console) (what : Bytes), ∃ c'' report,
      ((.done (), c'.print (.processingError what)) : Outcome Unit × Console) = (.done (), c'') ∧
        Reports c' c'' [.processingError what] none report :=
    fun c' what => ⟨_, none, rfl, Reports.print c' _⟩
  unfold TimesKnown parsed at hk
  unfold processPacket processBody packetLines timing parsed
  have hne := Outcome.ofExcept_ne_undefined (lib.parse jsonData)
  generalize Outcome.ofExcept (lib.parse jsonData) = o at hk hne ⊢
  rcases o with packet | what | _
  · simp only [lift_bind_done, Outcome.bind_done] at hk ⊢
    have hne := @describe_ne_undefined lib packet
    generalize describe lib packet = o at hk hne ⊢
    rcases o with ⟨d, packet⟩ | what | _
    · obtain ⟨time, ht⟩ := Option.isSome_iff_exists.mp (hk d packet rfl)
      simp only [putTime, ht, lift_bind_done, store_bind_apply]
      have hline := Reports.print c (.packet (d.line time))
      have hne := readFlags_ne_undefined packet
      generalize readFlags packet = o at hne ⊢
      rcases o with ⟨injected, blocked⟩ | what | _
      · simp only [lift_bind_done, store_bind_apply, store_apply]
        cases injected || blocked with
        | true =>
          obtain ⟨report, hr⟩ := Reports.periodic
            ((c.print (.packet (d.line time))).print (.flags (flagsLine injected blocked))) clock
          exact ⟨_, report, rfl, (hline.trans (Reports.print _ _)).trans hr⟩
        | false =>
          obtain ⟨report, hr⟩ := Reports.periodic (c.print (.packet (d.line time))) clock
          exact ⟨_, report, rfl, hline.trans hr⟩
      · exact ⟨_, none, rfl, hline.trans (Reports.print _ _)⟩
      · exact absurd rfl hne
    · exact hraised c what
    · exact absurd rfl hne
  · exact hraised c what
  · exact absurd rfl hne

/-- Every time in a message has a local time. -/
def Arrival.TimesKnown (lib : ConsoleLibrary) : Arrival → Prop
  | .multipart (_ :: jsonData :: _) _ => Kpacket.TimesKnown lib jsonData
  | _ => True

/-- The console before a packet is counted. -/
theorem monitorTurn_reports {a : Arrival} (hk : a.TimesKnown lib) (c : Console) :
    ∃ c' report, Reports c c' (linesOf lib a) (a.timed lib) report ∧
      monitorTurn lib a c = (.done (),
        { c' with packetsReceived := c.packetsReceived + if a.counts then 1 else 0 }) := by
  have hnone : monitorTurn lib a c = (.done (), c) → a.counts = false → linesOf lib a = [] →
      a.timed lib = none →
      ∃ c' report, Reports c c' (linesOf lib a) (a.timed lib) report ∧
        monitorTurn lib a c = (.done (),
          { c' with packetsReceived := c.packetsReceived + if a.counts then 1 else 0 }) := by
    intro hturn hcounts hlines htimed
    rw [hturn, hcounts, hlines, htimed]
    exact ⟨c, none, .refl c, by simp⟩
  cases a with
  | nothing => exact hnone rfl rfl rfl rfl
  | thrown what running =>
    cases running with
    | false => exact hnone rfl rfl rfl rfl
    | true =>
      refine ⟨_, none, .print c (.monitorError what), ?_⟩
      simp only [Arrival.counts, Bool.false_eq_true, if_false, UInt64.add_zero]
      rfl
  | multipart frames clock =>
    rcases frames with _ | ⟨topic, _ | ⟨jsonData, rest⟩⟩
    · exact hnone rfl rfl rfl rfl
    · exact hnone rfl rfl rfl rfl
    · obtain ⟨c', report, hp, hr⟩ := processPacket_reports hk clock c
      refine ⟨c', report, hr, ?_⟩
      show Storing.bind (processPacket lib clock jsonData) _ c = _
      rw [Storing.bind, hp, ← hr.packetsReceived]
      rfl

def Arrival.now? : Arrival → Option Int
  | .multipart _ clock => some clock.now
  | _ => none

/-- The clock readings of the arrivals with a report. -/
def reportTimes (arrivals : List Arrival) (reports : List (Option Statistics)) : List Int :=
  (arrivals.zip reports).filterMap fun x => if x.2.isSome then x.1.now? else none

/-- When the ten seconds before the first report begin: with the last report before these arrivals,
or else with the first of them that comes to the statistics. -/
def reportsBegin (lib : ConsoleLibrary) (last : Option Int) (arrivals : List Arrival) :
    Option Int :=
  last.or ((arrivals.findSome? (Arrival.timed lib)).map Readings.first)

/-- A report comes with the first arrival that gets to the statistics more than ten seconds after
the one before, and no earlier. -/
structure Paced (lib : ConsoleLibrary) (last : Option Int) (arrivals : List Arrival)
    (reports : List (Option Statistics)) : Prop where
  begun : ∀ t ∈ reportTimes arrivals reports, ∃ l, reportsBegin lib last arrivals = some l ∧
    l + 10 * Console.second < t
  spaced : (reportTimes arrivals reports).Pairwise fun t t' => t + 10 * Console.second < t'
  prompt : ∀ i a clock, arrivals[i]? = some a → a.timed lib = some clock → reports[i]? = some none →
    ∃ l, (reportTimes (arrivals.take i) (reports.take i)).getLast?.or
      (reportsBegin lib last arrivals) = some l ∧ clock.now ≤ l + 10 * Console.second

/-- What a run of the monitor has printed and counted; each arrival has its lines, and after them
perhaps a report. -/
structure Accounts (lib : ConsoleLibrary) (arrivals : List Arrival) (c c' : Console)
    (reports : List (Option Statistics)) : Prop where
  length : reports.length = arrivals.length
  printed : c'.printed = c.printed ++ (arrivals.zip reports).flatMap fun x =>
    linesOf lib x.1 ++ x.2.toList.map .statistics
  packetsReceived : c'.packetsReceived = c.packetsReceived + .ofNat (arrivals.countP Arrival.counts)
  counted : ∀ i s, reports[i]? = some (some s) →
    s.packetsReceived = c.packetsReceived + .ofNat ((arrivals.take i).countP Arrival.counts)
  paced : Paced lib c.lastStats arrivals reports

theorem Arrival.now_of_timed {a : Arrival} {clock : Readings} (h : a.timed lib = some clock) :
    a.now? = some clock.now := by
  unfold Arrival.timed timing at h
  split at h
  · split at h
    · split at h
      · cases h
        rfl
      · cases h
    · cases h
  · cases h

theorem reportTimes_none (a : Arrival) (rest : List Arrival) (reports : List (Option Statistics)) :
    reportTimes (a :: rest) (none :: reports) = reportTimes rest reports := rfl

theorem reportTimes_some {a : Arrival} {t : Int} (h : a.now? = some t) (rest : List Arrival)
    (s : Statistics) (reports : List (Option Statistics)) :
    reportTimes (a :: rest) (some s :: reports) = t :: reportTimes rest reports := by
  rw [reportTimes, List.zip_cons_cons, List.filterMap_cons, Option.isSome_some, if_pos rfl, h]
  rfl

theorem reportsBegin_untimed {a : Arrival} (h : a.timed lib = none) (last : Option Int)
    (rest : List Arrival) : reportsBegin lib last (a :: rest) = reportsBegin lib last rest := by
  rw [reportsBegin, List.findSome?_cons, h]
  rfl

theorem reportsBegin_timed {a : Arrival} {clock : Readings} (h : a.timed lib = some clock)
    (last : Option Int) (rest : List Arrival) :
    reportsBegin lib last (a :: rest) = some (last.getD clock.first) := by
  rw [reportsBegin, List.findSome?_cons, h]
  cases last <;> rfl

section Paced

variable {a : Arrival} {rest : List Arrival} {last last' : Option Int}
  {reports : List (Option Statistics)}

/-- An arrival without a report. -/
theorem Paced.skip (h : Paced lib last' rest reports)
    (hbegin : reportsBegin lib last (a :: rest) = reportsBegin lib last' rest)
    (hearly : ∀ clock, a.timed lib = some clock → ∃ l, reportsBegin lib last (a :: rest) = some l ∧
      clock.now ≤ l + 10 * Console.second) : Paced lib last (a :: rest) (none :: reports) := by
  refine ⟨?_, ?_, ?_⟩
  · rw [reportTimes_none, hbegin]
    exact h.begun
  · rw [reportTimes_none]
    exact h.spaced
  · rintro (_ | i) b clock hb hclock hno
    · cases hb
      exact hearly clock hclock
    · rw [List.take_succ_cons, List.take_succ_cons, reportTimes_none, hbegin]
      exact h.prompt i b clock hb hclock hno

theorem Paced.report {clock : Readings} (h : Paced lib (some clock.now) rest reports)
    (htimed : a.timed lib = some clock)
    (hdue : last.getD clock.first + 10 * Console.second < clock.now) (s : Statistics) :
    Paced lib last (a :: rest) (some s :: reports) := by
  have hbegin := reportsBegin_timed htimed last rest
  have htimes := reportTimes_some (Arrival.now_of_timed htimed)
  have hlater : ∀ t ∈ reportTimes rest reports, clock.now + 10 * Console.second < t := by
    intro t ht
    obtain ⟨l, hl, hlt⟩ := h.begun t ht
    cases hl
    exact hlt
  refine ⟨?_, ?_, ?_⟩
  · rw [htimes, hbegin]
    intro t ht
    refine ⟨_, rfl, ?_⟩
    rcases List.mem_cons.mp ht with rfl | ht
    · exact hdue
    · have hpos : 0 < Console.second := by decide
      have := hlater t ht
      omega
  · rw [htimes]
    exact h.spaced.cons hlater
  · rintro (_ | i) b clock' hb hclock hno
    · cases hno
    · obtain ⟨l, hl, hle⟩ := h.prompt i b clock' hb hclock hno
      refine ⟨l, ?_, hle⟩
      rw [List.take_succ_cons, List.take_succ_cons, htimes, List.getLast?_cons, ← hl]
      cases (reportTimes (rest.take i) (reports.take i)).getLast? <;> rfl

theorem Paced.cons {c c₁ : Console} {lines : List Printed} {report : Option Statistics}
    (h : Paced lib c₁.lastStats rest reports) (hr : Reports c c₁ lines (a.timed lib) report) :
    Paced lib c.lastStats (a :: rest) (report :: reports) := by
  cases htimed : a.timed lib with
  | none =>
    obtain ⟨rfl, hlast⟩ := hr.untimed htimed
    rw [hlast] at h
    refine h.skip (reportsBegin_untimed htimed _ rest) fun clock hclock => ?_
    cases htimed.symm.trans hclock
  | some clock =>
    rw [htimed] at hr
    cases report with
    | none =>
      obtain ⟨hle, hlast⟩ := hr.early clock rfl rfl
      rw [hlast] at h
      have hbegin := reportsBegin_timed htimed c.lastStats rest
      refine h.skip hbegin fun clock' hclock => ?_
      cases htimed.symm.trans hclock
      exact ⟨_, hbegin, hle⟩
    | some s =>
      obtain ⟨hlt, hlast⟩ := hr.due clock rfl rfl
      rw [hlast] at h
      exact h.report htimed hlt s

end Paced

theorem Accounts.cons {a : Arrival} {rest : List Arrival} {c c₁ c' : Console}
    {report : Option Statistics} {reports : List (Option Statistics)}
    (hacc : Accounts lib rest
      { c₁ with packetsReceived := c.packetsReceived + if a.counts then 1 else 0 } c' reports)
    (hr : Reports c c₁ (linesOf lib a) (a.timed lib) report) :
    Accounts lib (a :: rest) c c' (report :: reports) := by
  have hcount : ∀ l : List Arrival, c.packetsReceived + (if a.counts then 1 else 0) +
      UInt64.ofNat (l.countP Arrival.counts) =
        c.packetsReceived + .ofNat ((a :: l).countP Arrival.counts) := by
    intro l
    rw [List.countP_cons, Nat.add_comm, UInt64.ofNat_add, UInt64.add_assoc]
    cases a.counts <;> rfl
  have hpaced : Paced lib c₁.lastStats rest reports := hacc.paced
  refine ⟨?_, ?_, ?_, ?_, hpaced.cons hr⟩
  · rw [List.length_cons, List.length_cons, hacc.length]
  · rw [hacc.printed]
    show c₁.printed ++ _ = _
    rw [hr.printed]
    simp
  · rw [hacc.packetsReceived]
    exact hcount rest
  · rintro (_ | i) s hs
    · cases Option.some.inj hs
      rw [hr.counted s rfl]
      simp
    · exact (hacc.counted i s hs).trans (hcount _)

/-- Nothing that arrives stops the monitor; it prints the lines of all that arrives, counts the
messages, and reports those before whenever more than ten seconds have gone by. -/
theorem monitorPackets_accounts {arrivals : List Arrival} (hk : ∀ a ∈ arrivals, a.TimesKnown lib)
    (c : Console) : ∃ c' reports, monitorPackets lib arrivals c = (.done (), c') ∧
      Accounts lib arrivals c c' reports := by
  induction arrivals generalizing c with
  | nil => exact ⟨c, [], rfl, rfl, by simp, by simp, by simp, nofun, .nil, nofun⟩
  | cons a rest ih =>
    obtain ⟨c₁, report, hr, hturn⟩ := monitorTurn_reports (hk a (List.mem_cons_self ..)) c
    obtain ⟨c', reports, hrun, hacc⟩ := ih (fun a ha => hk a (List.mem_cons_of_mem _ ha))
      { c₁ with packetsReceived := c.packetsReceived + if a.counts then 1 else 0 }
    refine ⟨c', report :: reports, ?_, hacc.cons hr⟩
    show Storing.bind (monitorTurn lib a) _ c = _
    rw [Storing.bind, hturn]
    exact hrun

/-- A library that reads compact JSON, on a clock without time zones. -/
def referenceConsole : ConsoleLibrary where
  toJsonConversions := referenceConversions id
  localTime t := some (decimal (t.toNat / 3600000 % 24) ++ lit ":" ++
    decimal (t.toNat / 60000 % 60) ++ lit ":" ++ decimal (t.toNat / 1000 % 60))

/-- A message that is no object is an error, and is counted; of two others, eleven seconds apart,
the second brings a report. -/
theorem monitorPackets_report : ∃ arrivals c' reports,
    arrivals.map Arrival.now? = [some 0, some 1000000000, some 12000000000] ∧
    monitorPackets referenceConsole arrivals { startTime := 0 } = (.done (), c') ∧
    Accounts referenceConsole arrivals { startTime := 0 } c' reports ∧
    c'.packetsReceived = 3 ∧ reportTimes arrivals reports = [12000000000] := by
  let text :=
    lit "\x7b\"direction\":\"\",\"metadata\":\x7b\"blocked\":false,\"injected\":false\x7d," ++
      lit "\"packet_id\":10,\"packet_name\":\"\",\"packet_type\":\"\",\"size\":4," ++
      lit "\"timestamp\":0\x7d"
  let a₀ := Arrival.multipart [[], lit "1"] ⟨0, 0, 0⟩
  let a₁ := Arrival.multipart [[], text] ⟨1000000000, 1000000000, 1000000000⟩
  let a₂ := Arrival.multipart [[], text] ⟨2000000000, 12000000000, 12000000000⟩
  have h₀ : a₀.timed referenceConsole = none := by decide +kernel
  have h₁ : a₁.timed referenceConsole = some ⟨1000000000, 1000000000, 1000000000⟩ := by
    decide +kernel
  have h₂ : a₂.timed referenceConsole = some ⟨2000000000, 12000000000, 12000000000⟩ := by
    decide +kernel
  have hk : ∀ a ∈ [a₀, a₁, a₂], a.TimesKnown referenceConsole := by
    intro a ha
    simp only [List.mem_cons, List.not_mem_nil, or_false] at ha
    rcases ha with rfl | rfl | rfl <;> exact fun _ _ _ => rfl
  obtain ⟨c', reports, hrun, hacc⟩ := monitorPackets_accounts hk { startTime := 0 }
  refine ⟨_, c', reports, rfl, hrun, hacc, hacc.packetsReceived, ?_⟩
  have hbegin : reportsBegin referenceConsole none [a₀, a₁, a₂] = some 1000000000 := by
    rw [reportsBegin_untimed h₀, reportsBegin_timed h₁]
    rfl
  have hbegun := hacc.paced.begun
  have hprompt := hacc.paced.prompt 2 a₂ _ rfl h₂
  rw [hbegin] at hbegun hprompt
  have hlater : ∀ t ∈ reportTimes [a₀, a₁, a₂] reports, 11000000000 < t := by
    intro t ht
    obtain ⟨_, ⟨⟩, hlt⟩ := hbegun t ht
    exact hlt
  rcases reports with _ | ⟨r₀, _ | ⟨r₁, _ | ⟨r₂, _ | _⟩⟩⟩
  · cases hacc.length
  · cases hacc.length
  · cases hacc.length
  · cases r₀ with
    | some s => exact absurd (hlater 0 (List.mem_cons_self ..)) (by decide)
    | none => cases r₁ with
      | some s => exact absurd (hlater 1000000000 (List.mem_cons_self ..)) (by decide)
      | none => cases r₂ with
        | some s => rfl
        | none =>
          obtain ⟨_, ⟨⟩, hle⟩ := hprompt rfl
          exact absurd hle (by decide)
  · cases hacc.length

end

/-! ### The messages of a relay -/

/-- What is relied on of the parser. -/
def ConsoleReads (env : Env) (lib : ConsoleLibrary) : Prop :=
  ∀ {j : Json} {text : Bytes}, j.Plain → env.json.dump j = .ok text → lib.parse text = .ok j

def describedOf (packet : PacketInfo) : Described where
  timestamp := packet.timestamp
  direction := directionName packet.direction
  packetId := packet.id
  packetName := packet.name
  size := packet.size

/-- The lines of a packet. -/
def packetOutput (lib : ConsoleLibrary) (packet : PacketInfo) : List Printed :=
  match lib.localTime packet.timestamp with
  | none => []
  | some time => .packet ((describedOf packet).line time) ::
      if packet.injected || packet.blocked then
        [.flags (flagsLine packet.injected packet.blocked)] else []

section

variable {env : Env} {lib : ConsoleLibrary}

/-- The second frame of a message is read as the packet, in either form of the message. -/
theorem parsed_message (hp : ConsoleReads env lib) {packet : PacketInfo} {messageId : UInt64}
    {frames : List Bytes} (h : message env packet messageId = .ok frames) :
    ∃ text rest j, frames = topicForPacket env.config packet :: text :: rest ∧
      parsed lib text = .done (describedOf packet, j) ∧
      readFlags j = .done (packet.injected, packet.blocked) := by
  obtain ⟨text, rest, j, rfl, hplain, hdump, hobj, hl, -⟩ := message_head h
  have hk : ∀ {k x}, k ∉ framingKeys → KeyMap.lookup k (packetFields packet) = some x →
      index j k = .done (x, j) := fun hk hx => index_of_lookup ((hl _ hk).trans hx)
  have htime := hk (k := lit "timestamp") (by decide) rfl
  have hdir := hk (k := lit "direction") (by decide) rfl
  have htype := hk (k := lit "packet_type") (by decide) rfl
  have hid := hk (k := lit "packet_id") (by decide) rfl
  have hname := hk (k := lit "packet_name") (by decide) rfl
  have hsize := hk (k := lit "size") (by decide) rfl
  have hmd := hk (k := lit "metadata") (by decide) rfl
  have hm : ∀ {k x}, KeyMap.lookup k (metadataFields packet) = some x →
      index (Json.obj (metadataFields packet)) k = .done (x, Json.obj (metadataFields packet)) :=
    fun hx => index_of_lookup ((Json.lookup_obj ..).trans hx)
  have hinj := hm (k := lit "injected") rfl
  have hblk := hm (k := lit "blocked") rfl
  refine ⟨text, rest, j, rfl, ?_, ?_⟩
  · simp only [parsed, hp hplain hdump, Outcome.ofExcept, Outcome.bind_done, describe, htime, hdir,
      htype, hid, hname, hsize, getUInt64_toNat, getString, JsonLibrary.getUInt16_toNat,
      JsonConversions.getUInt32_toNat]
    rfl
  · simp only [readFlags, hmd, hinj, hblk, Outcome.bind_done, getBool]
    rfl

theorem packetLines_message (hp : ConsoleReads env lib) {packet : PacketInfo} {messageId : UInt64}
    {frames : List Bytes} (h : message env packet messageId = .ok frames) (clock : Readings) :
    linesOf lib (.multipart frames clock) = packetOutput lib packet ∧
      (Arrival.multipart frames clock).counts = true ∧
      ((lib.localTime packet.timestamp).isSome = true →
        (Arrival.multipart frames clock).TimesKnown lib) := by
  obtain ⟨text, rest, j, rfl, hparsed, hflags⟩ := parsed_message hp h
  refine ⟨?_, rfl, fun ht d j' hd => ?_⟩
  · rw [linesOf, packetLines, hparsed, packetOutput]
    simp only [hflags]
    rfl
  · rw [hparsed] at hd
    cases hd
    exact ht

/-- A line that comes from a message. -/
def Printed.ofMessage : Printed → Bool
  | .packet _ | .flags _ | .processingError _ => true
  | .statistics _ | .monitorError _ => false

def Arrival.frames? : Arrival → Option (List Bytes)
  | .multipart frames _ => some frames
  | _ => none

theorem Accounts.ofMessage {arrivals : List Arrival} {c c' : Console}
    {reports : List (Option Statistics)} (h : Accounts lib arrivals c c' reports) :
    c'.printed.filter Printed.ofMessage = c.printed.filter Printed.ofMessage ++
      arrivals.flatMap fun a => (linesOf lib a).filter Printed.ofMessage := by
  have hzip : ∀ (arrivals : List Arrival) (reports : List (Option Statistics)),
      reports.length = arrivals.length → ((arrivals.zip reports).flatMap fun x =>
        linesOf lib x.1 ++ x.2.toList.map Printed.statistics).filter Printed.ofMessage =
          arrivals.flatMap fun a => (linesOf lib a).filter Printed.ofMessage := by
    intro arrivals
    induction arrivals with
    | nil => intro reports _; rfl
    | cons a rest ih =>
      rintro (_ | ⟨report, reports⟩) hlen
      · cases hlen
      · have hreport : (report.toList.map Printed.statistics).filter Printed.ofMessage = [] := by
          cases report <;> rfl
        rw [List.zip_cons_cons, List.flatMap_cons, List.flatMap_cons, List.filter_append,
          List.filter_append, hreport, List.append_nil, ih reports (Nat.succ.inj hlen)]
  rw [h.printed, List.filter_append, hzip arrivals reports h.length]

theorem ofMessage_packetOutput (packet : PacketInfo) :
    (packetOutput lib packet).filter Printed.ofMessage = packetOutput lib packet := by
  unfold packetOutput
  cases lib.localTime packet.timestamp with
  | none => rfl
  | some time => cases packet.injected || packet.blocked <;> rfl

theorem lines_of_messages (hp : ConsoleReads env lib) {ms : List SentMessage}
    (hms : ∀ m ∈ ms, message env m.packet m.messageId = .ok m.frames) {arrivals : List Arrival}
    (ha : arrivals.filterMap Arrival.frames? = ms.map SentMessage.frames) :
    (arrivals.flatMap fun a => (linesOf lib a).filter Printed.ofMessage) =
      (ms.flatMap fun m => packetOutput lib m.packet) ∧
      arrivals.countP Arrival.counts = ms.length ∧
      ((∀ m ∈ ms, (lib.localTime m.packet.timestamp).isSome = true) →
        ∀ a ∈ arrivals, a.TimesKnown lib) := by
  induction arrivals generalizing ms with
  | nil =>
    obtain rfl := List.map_eq_nil_iff.mp ha.symm
    exact ⟨rfl, rfl, by simp⟩
  | cons a rest ih =>
    cases a with
    | nothing =>
      obtain ⟨hlines, hcount, hk⟩ := ih hms ha
      exact ⟨hlines, hcount, fun ht a ha => by
        rcases List.mem_cons.mp ha with rfl | ha
        · trivial
        · exact hk ht a ha⟩
    | thrown what running =>
      obtain ⟨hlines, hcount, hk⟩ := ih hms ha
      refine ⟨?_, hcount, fun ht a ha => ?_⟩
      · rw [List.flatMap_cons, hlines]
        cases running <;> rfl
      · rcases List.mem_cons.mp ha with rfl | ha
        · trivial
        · exact hk ht a ha
    | multipart frames clock =>
      obtain ⟨m, ms, rfl, rfl, hrest⟩ := List.map_eq_cons_iff.mp ha.symm
      obtain ⟨hlines, hcount, hk⟩ :=
        ih (fun m hm => hms m (List.mem_cons_of_mem _ hm)) hrest.symm
      obtain ⟨hl, hc, ht⟩ := packetLines_message hp (hms m (List.mem_cons_self ..)) clock
      refine ⟨?_, ?_, fun hts a ha => ?_⟩
      · rw [List.flatMap_cons, List.flatMap_cons, hl, ofMessage_packetOutput, hlines]
      · rw [List.countP_cons_of_pos hc, hcount, List.length_cons]
      · rcases List.mem_cons.mp ha with rfl | ha
        · exact ht (hts m (List.mem_cons_self ..))
        · exact hk (fun m hm => hts m (List.mem_cons_of_mem _ hm)) a ha

/-- Of whatever part of a run arrives, and between whatever errors, the monitor prints the lines of
the packets in their order, and counts them. -/
theorem printed_delivered (hp : ConsoleReads env lib) {tr : List Label} {s : System}
    (h : Run (System.step env) {} tr s) (arrives : Nat → Bool) {arrivals : List Arrival}
    (ha : arrivals.filterMap Arrival.frames? =
      (PubStream.delivered arrives tr).map fun d => d.2.frames)
    (hclock : ∀ d ∈ PubStream.delivered arrives tr,
      (lib.localTime d.2.packet.timestamp).isSome = true) (startTime : Int) :
    ∃ c', monitorPackets lib arrivals { startTime := startTime } = (.done (), c') ∧
      c'.printed.filter Printed.ofMessage =
        ((PubStream.delivered arrives tr).flatMap fun d => packetOutput lib d.2.packet) ∧
      c'.packetsReceived = .ofNat (PubStream.delivered arrives tr).length := by
  have hms : ∀ m ∈ (PubStream.delivered arrives tr).map Prod.snd,
      message env m.packet m.messageId = .ok m.frames := by
    intro m hm
    obtain ⟨d, hd, rfl⟩ := List.mem_map.mp hm
    exact (PubStream.delivered_place h hd).2.2
  obtain ⟨hlines, hcount, hk⟩ := lines_of_messages hp hms (by rw [ha, List.map_map]; rfl)
  have hknown := hk fun m hm => by
    obtain ⟨d, hd, rfl⟩ := List.mem_map.mp hm
    exact hclock d hd
  obtain ⟨c', reports, hrun, hacc⟩ := monitorPackets_accounts hknown { startTime := startTime }
  refine ⟨c', hrun, ?_, ?_⟩
  · rw [hacc.ofMessage, hlines, List.flatMap_map]
    rfl
  · rw [hacc.packetsReceived, hcount, List.length_map]
    simp

end

theorem reads_referenceConsole : ConsoleReads PubStream.streamingEnv referenceConsole :=
  parse_dump_defaultEnv

/-- Of three packets the first and the third arrive, and are printed. -/
theorem printed_login : ∃ tr s c', Run (System.step PubStream.streamingEnv) {} tr s ∧
    (PubStream.delivered (fun k => k ≠ 1) tr).length = 2 ∧
    (∃ arrivals, monitorPackets referenceConsole arrivals { startTime := 0 } = (.done (), c')) ∧
    c'.packetsReceived = 2 := by
  obtain ⟨tr, s, m₁, m₃, h, -, hdel⟩ := PubStream.exists_lost
  obtain ⟨c', hrun, -, hcount⟩ := printed_delivered reads_referenceConsole h (fun k => k ≠ 1)
    (show [Arrival.nothing, .multipart m₁.frames ⟨0, 0, 0⟩, .thrown [] true,
      .multipart m₃.frames ⟨1, 1, 1⟩].filterMap Arrival.frames? = _ by rw [hdel]; rfl)
    (fun _ _ => rfl) 0
  refine ⟨tr, s, c', h, by rw [hdel]; rfl, ⟨_, hrun⟩, ?_⟩
  rw [hcount, hdel]
  rfl

end Kpacket
