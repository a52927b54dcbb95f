import Kpacket.Json
import Kpacket.JsonString

/-!
# JSON texts (RFC 8259)

`read` is a reader for the whole grammar; the last of two equal keys counts. `write` is the compact
writer; it refuses strings that are not UTF-8, and floats, whose text depends on a rounding the
values here do not fix. `read_write`: what is written is read back.
-/

namespace JsonText

def isWs (c : UInt8) : Bool := c == 32 || c == 9 || c == 10 || c == 13

def skipWs (s : Bytes) : Bytes := s.dropWhile isWs

/-! ### Numbers -/

/-- The digits behind a decimal point; `none` for a point without digits. -/
def readFraction : Bytes → Option (Option Bytes × Bytes)
  | 46 :: s =>
    if s.takeWhile isDigit = [] then none
    else some (some (s.takeWhile isDigit), s.dropWhile isDigit)
  | s => some (none, s)

def readSign : Bytes → Bool × Bytes
  | 43 :: s => (false, s)
  | 45 :: s => (true, s)
  | s => (false, s)

def readExponent : Bytes → Option (Option Int × Bytes)
  | [] => some (none, [])
  | c :: s =>
    if c = 101 ∨ c = 69 then
      let (neg, s) := readSign s
      if s.takeWhile isDigit = [] then none
      else
        let e : Int := ofDigits (s.takeWhile isDigit)
        some (some (if neg then -e else e), s.dropWhile isDigit)
    else some (none, c :: s)

/-- The value of a numeral: an integer unless it has a fraction or an exponent. -/
def number (neg : Bool) (ds : Bytes) (fs : Option Bytes) (e : Option Int) : Json :=
  match fs, e with
  | none, none => .integer (if neg then -(ofDigits ds : Int) else ofDigits ds)
  | _, _ =>
    let fs := fs.getD []
    let q : Rat := (ofDigits (ds ++ fs) : Rat) * 10 ^ (e.getD 0 - fs.length)
    .float (if neg then -q else q)

def readUnsigned (neg : Bool) (s : Bytes) : Option (Json × Bytes) :=
  let ds := s.takeWhile isDigit
  if ds = [] ∨ 1 < ds.length ∧ ds.head? = some 48 then none
  else
    match readFraction (s.dropWhile isDigit) with
    | none => none
    | some (fs, s) => (readExponent s).map fun r => (number neg ds fs r.1, r.2)

def readNumber : Bytes → Option (Json × Bytes)
  | 45 :: s => readUnsigned true s
  | s => readUnsigned false s

/-! ### Values -/

/-- A key, its colon and the whitespace around the colon. -/
def readKey : Bytes → Option (Bytes × Bytes)
  | 34 :: s =>
    match scan (.text .start) s with
    | none => none
    | some (k, s) =>
      match skipWs s with
      | 58 :: s => some (k, skipWs s)
      | _ => none
  | _ => none

mutual
/-- One value; the text starts at its first byte. The first argument bounds the recursion. -/
def readValue : Nat → Bytes → Option (Json × Bytes)
  | 0, _ => none
  | n + 1, s =>
    match s with
    | 34 :: s => (scan (.text .start) s).map fun r => (.string r.1, r.2)
    | 91 :: s =>
      match skipWs s with
      | 93 :: s => some (.array [], s)
      | s => readElems n [] s
    | 123 :: s =>
      match skipWs s with
      | 125 :: s => some (.object [], s)
      | s => readMembers n [] s
    | 110 :: 117 :: 108 :: 108 :: s => some (.null, s)
    | 116 :: 114 :: 117 :: 101 :: s => some (.boolean true, s)
    | 102 :: 97 :: 108 :: 115 :: 101 :: s => some (.boolean false, s)
    | s => readNumber s
def readElems : Nat → List Json → Bytes → Option (Json × Bytes)
  | 0, _, _ => none
  | n + 1, acc, s =>
    match readValue n s with
    | none => none
    | some (x, s) =>
      match skipWs s with
      | 44 :: s => readElems n (acc ++ [x]) (skipWs s)
      | 93 :: s => some (.array (acc ++ [x]), s)
      | _ => none
def readMembers : Nat → List (Bytes × Json) → Bytes → Option (Json × Bytes)
  | 0, _, _ => none
  | n + 1, acc, s =>
    match readKey s with
    | none => none
    | some (k, s) =>
      match readValue n s with
      | none => none
      | some (x, s) =>
        match skipWs s with
        | 44 :: s => readMembers n (KeyMap.insert k x acc) (skipWs s)
        | 125 :: s => some (.object (KeyMap.insert k x acc), s)
        | _ => none
end

def read (s : Bytes) : Option Json :=
  match readValue (2 * s.length + 1) (skipWs s) with
  | some (x, r) => if skipWs r = [] then some x else none
  | none => none

/-! ### The compact writer -/

def writeInt (n : Int) : Bytes :=
  if n < 0 then 45 :: decimal n.natAbs else decimal n.natAbs

def writeString (s : Bytes) : Option Bytes := if IsUtf8 s then some (quote s) else none

mutual
def write : Json → Option Bytes
  | .null => some [110, 117, 108, 108]
  | .boolean b => some (if b then [116, 114, 117, 101] else [102, 97, 108, 115, 101])
  | .integer n => some (writeInt n)
  | .float _ => none
  | .string s => writeString s
  | .array xs => (writeElems xs).map fun w => 91 :: (w ++ [93])
  | .object m => (writeMembers m).map fun w => 123 :: (w ++ [125])
def writeElems : List Json → Option Bytes
  | [] => some []
  | [x] => write x
  | x :: xs =>
    match write x, writeElems xs with
    | some w, some ws => some (w ++ 44 :: ws)
    | _, _ => none
def writeMember : Bytes → Json → Option Bytes
  | k, x =>
    match writeString k, write x with
    | some w, some v => some (w ++ 58 :: v)
    | _, _ => none
def writeMembers : List (Bytes × Json) → Option Bytes
  | [] => some []
  | [(k, x)] => writeMember k x
  | (k, x) :: m =>
    match writeMember k x, writeMembers m with
    | some w, some ws => some (w ++ 44 :: ws)
    | _, _ => none
end

/-! ### Reading what was written -/

/-- What may stand behind a value inside a compact text: nothing, or a delimiter. -/
def Stops (r : Bytes) : Prop := ∀ c ∈ r.head?, c = 44 ∨ c = 93 ∨ c = 125

theorem Stops.nil : Stops [] := by simp [Stops]

theorem Stops.cons {c : UInt8} (h : c = 44 ∨ c = 93 ∨ c = 125) (r : Bytes) : Stops (c :: r) := by
  simpa [Stops] using h

theorem Stops.takeWhile {r : Bytes} (h : Stops r) :
    r.takeWhile isDigit = [] ∧ r.dropWhile isDigit = r := by
  cases r with
  | nil => simp
  | cons c r =>
    rcases h c rfl with rfl | rfl | rfl <;>
      exact ⟨List.takeWhile_cons_of_neg (by decide), List.dropWhile_cons_of_neg (by decide)⟩

theorem Stops.fraction {r : Bytes} (h : Stops r) : readFraction r = some (none, r) := by
  cases r with
  | nil => rfl
  | cons c r => rcases h c rfl with rfl | rfl | rfl <;> rfl

theorem Stops.exponent {r : Bytes} (h : Stops r) : readExponent r = some (none, r) := by
  cases r with
  | nil => rfl
  | cons c r => rcases h c rfl with rfl | rfl | rfl <;> simp [readExponent]

theorem readUnsigned_decimal (neg : Bool) (n : Nat) {r : Bytes} (h : Stops r) :
    readUnsigned neg (decimal n ++ r) =
      some (.integer (if neg then -(n : Int) else n), r) := by
  have hd : ∀ c ∈ decimal n, isDigit c = true := fun c hc => isDigit_of_mem_decimal hc
  have ht : (decimal n ++ r).takeWhile isDigit = decimal n := by
    rw [List.takeWhile_append_of_pos hd, h.takeWhile.1, List.append_nil]
  have hr : (decimal n ++ r).dropWhile isDigit = r := by
    rw [List.dropWhile_append_of_pos hd, h.takeWhile.2]
  have hz : ¬ (decimal n = [] ∨ 1 < (decimal n).length ∧ (decimal n).head? = some 48) := by
    rintro (hn | ⟨hl, hh⟩)
    · exact decimal_ne_nil n hn
    · exact head?_decimal hl hh
  simp only [readUnsigned, ht, hr, hz, if_false, h.fraction, h.exponent, number, ofDigits_decimal,
    Option.map_some]

theorem writeInt_head (n : Int) : ∃ c t, writeInt n = c :: t ∧ (c = 45 ∨ isDigit c = true) := by
  unfold writeInt
  split_ifs
  · exact ⟨_, _, rfl, .inl rfl⟩
  · obtain ⟨c, t, h⟩ := List.exists_cons_of_ne_nil (decimal_ne_nil n.natAbs)
    exact ⟨c, t, h, .inr (isDigit_of_mem_decimal (h ▸ List.mem_cons_self ..))⟩

theorem readNumber_writeInt (n : Int) {r : Bytes} (h : Stops r) :
    readNumber (writeInt n ++ r) = some (.integer n, r) := by
  unfold writeInt
  split_ifs with hn
  · simp only [List.cons_append, readNumber, readUnsigned_decimal true _ h, if_true]
    rw [show -(n.natAbs : Int) = n by omega]
  · obtain ⟨c, t, hc⟩ := List.exists_cons_of_ne_nil (decimal_ne_nil n.natAbs)
    have hc45 : c ≠ 45 := by
      rintro rfl
      exact absurd (isDigit_of_mem_decimal (hc ▸ List.mem_cons_self ..)) (by decide)
    have hu : readNumber (decimal n.natAbs ++ r) = readUnsigned false (decimal n.natAbs ++ r) := by
      rw [hc, List.cons_append, readNumber]
      simpa using hc45
    rw [hu, readUnsigned_decimal false _ h]
    rw [show (if false = true then -(n.natAbs : Int) else n.natAbs) = n by simp; omega]

theorem readValue_number (n : Nat) {c : UInt8} (t : Bytes) (h : c = 45 ∨ isDigit c = true) :
    readValue (n + 1) (c :: t) = readNumber (c :: t) := by
  rw [readValue]
  all_goals
    intro s hs
    cases hs
    exact absurd h (by decide)

/-- A written value starts neither with whitespace nor with a closing bracket. -/
def Opens (w : Bytes) : Prop := ∃ c t, w = c :: t ∧ isWs c = false ∧ c ≠ 93 ∧ c ≠ 125

theorem Opens.skipWs {w : Bytes} (h : Opens w) (r : Bytes) : skipWs (w ++ r) = w ++ r := by
  obtain ⟨c, t, rfl, hc, -, -⟩ := h
  exact List.dropWhile_cons_of_neg (by simp [hc])

theorem Opens.append {w : Bytes} (h : Opens w) (v : Bytes) : Opens (w ++ v) := by
  obtain ⟨c, t, rfl, hc⟩ := h
  exact ⟨c, t ++ v, rfl, hc⟩

theorem opens_writeString {s w : Bytes} (h : writeString s = some w) : Opens w := by
  unfold writeString at h
  split_ifs at h
  cases h
  exact ⟨34, _, rfl, by decide, by decide, by decide⟩

theorem opens_write {j : Json} {w : Bytes} (h : write j = some w) : Opens w := by
  cases j <;> simp only [write, Option.some.injEq, Option.map_eq_some_iff, reduceCtorEq] at h
  case null => subst h; exact ⟨_, _, rfl, by decide, by decide, by decide⟩
  case boolean b =>
    subst h
    cases b <;> exact ⟨_, _, rfl, by decide, by decide, by decide⟩
  case integer n =>
    subst h
    obtain ⟨c, t, hw, hc⟩ := writeInt_head n
    refine ⟨c, t, hw, ?_, ?_, ?_⟩
    · by_contra hws
      simp only [isWs, Bool.not_eq_false, Bool.or_eq_true, beq_iff_eq] at hws
      rcases hws with ((rfl | rfl) | rfl) | rfl <;> exact absurd hc (by decide)
    · rintro rfl; exact absurd hc (by decide)
    · rintro rfl; exact absurd hc (by decide)
  case string s => exact opens_writeString h
  case array xs => obtain ⟨v, -, rfl⟩ := h; exact ⟨_, _, rfl, by decide, by decide, by decide⟩
  case object m => obtain ⟨v, -, rfl⟩ := h; exact ⟨_, _, rfl, by decide, by decide, by decide⟩

theorem readKey_writeString {k w : Bytes} (h : writeString k = some w) (r : Bytes)
    (hr : skipWs r = r) : readKey (w ++ 58 :: r) = some (k, r) := by
  unfold writeString at h
  split_ifs at h with hu
  cases h
  have hs : scan (.text .start) (k.flatMap escape ++ 34 :: 58 :: r) = some (k, 58 :: r) :=
    scan_escape k _ hu
  have hw : skipWs (58 :: r) = 58 :: r := List.dropWhile_cons_of_neg (by decide)
  simp only [quote, List.cons_append, List.append_assoc, List.nil_append, readKey, hs, hw, hr]

theorem opens_writeElems {xs : List Json} {w : Bytes} (hne : xs ≠ [])
    (h : writeElems xs = some w) : Opens w := by
  match xs with
  | [] => exact absurd rfl hne
  | [x] => simp only [writeElems] at h; exact opens_write h
  | x :: y :: xs =>
    simp only [writeElems] at h
    split at h
    · next w' ws hw _ => cases h; exact (opens_write hw).append _
    · cases h

theorem writeMember_eq {k w : Bytes} {x : Json} (h : writeMember k x = some w) :
    ∃ wk wx, writeString k = some wk ∧ write x = some wx ∧ w = wk ++ 58 :: wx := by
  simp only [writeMember] at h
  split at h
  · next wk wx hk hx => cases h; exact ⟨wk, wx, hk, hx, rfl⟩
  · cases h

theorem opens_writeMembers {m : List (Bytes × Json)} {w : Bytes} (hne : m ≠ [])
    (h : writeMembers m = some w) : Opens w := by
  match m with
  | [] => exact absurd rfl hne
  | [(k, x)] =>
    simp only [writeMembers] at h
    obtain ⟨wk, wx, hk, -, rfl⟩ := writeMember_eq h
    exact (opens_writeString hk).append _
  | (k, x) :: e :: m =>
    simp only [writeMembers] at h
    split at h
    · next w' ws hw _ =>
      cases h
      obtain ⟨wk, wx, hk, -, rfl⟩ := writeMember_eq hw
      exact ((opens_writeString hk).append _).append _
    · cases h

theorem readValue_array {xs : List Json} {w r : Bytes} {n : Nat} (hw : writeElems xs = some w)
    (h : xs ≠ [] → readElems n [] (w ++ 93 :: r) = some (.array xs, r)) :
    readValue (n + 1) (91 :: (w ++ [93]) ++ r) = some (.array xs, r) := by
  rw [List.cons_append, List.append_assoc, List.singleton_append]
  by_cases hne : xs = []
  · subst hne
    simp only [writeElems, Option.some.injEq] at hw
    subst hw; rfl
  · have ho := opens_writeElems hne hw
    rw [readValue, ho.skipWs]
    obtain ⟨c, t, rfl, -, h93, -⟩ := ho
    simpa [h93] using h hne

theorem readValue_object {m : List (Bytes × Json)} {w r : Bytes} {n : Nat}
    (hw : writeMembers m = some w)
    (h : m ≠ [] → readMembers n [] (w ++ 125 :: r) = some (.object m, r)) :
    readValue (n + 1) (123 :: (w ++ [125]) ++ r) = some (.object m, r) := by
  rw [List.cons_append, List.append_assoc, List.singleton_append]
  by_cases hne : m = []
  · subst hne
    simp only [writeMembers, Option.some.injEq] at hw
    subst hw; rfl
  · have ho := opens_writeMembers hne hw
    rw [readValue, ho.skipWs]
    obtain ⟨c, t, rfl, -, -, h125⟩ := ho
    simpa [h125] using h hne

theorem skipWs_delim {c : UInt8} (h : c = 44 ∨ c = 93 ∨ c = 125) (r : Bytes) :
    skipWs (c :: r) = c :: r := by
  rcases h with rfl | rfl | rfl <;> exact List.dropWhile_cons_of_neg (by decide)

mutual
/-- A written value is read back in front of any delimiter. -/
theorem readValue_write : ∀ (j : Json) (w : Bytes), write j = some w → j.Plain →
    ∀ (n : Nat) (r : Bytes), 2 * w.length ≤ n → Stops r → readValue n (w ++ r) = some (j, r)
  | j, w, h, hp, 0, r, hn, _ => by
    obtain ⟨c, t, rfl, -⟩ := opens_write h
    simp at hn
  | .null, w, h, _, n + 1, r, hn, _ => by
    simp only [write, Option.some.injEq] at h
    subst h; rfl
  | .boolean b, w, h, _, n + 1, r, hn, _ => by
    simp only [write, Option.some.injEq] at h
    subst h; cases b <;> rfl
  | .integer i, w, h, _, n + 1, r, hn, hr => by
    simp only [write, Option.some.injEq] at h
    subst h
    obtain ⟨c, t, hw, hc⟩ := writeInt_head i
    rw [← readNumber_writeInt i hr, hw, List.cons_append, readValue_number n _ hc]
  | .float _, w, h, hp, n + 1, r, hn, _ => by
    simp only [write, reduceCtorEq] at h
  | .string s, w, h, _, n + 1, r, hn, _ => by
    simp only [write, writeString] at h
    split_ifs at h with hu
    cases h
    have hs := scan_escape s r hu
    rw [quote, List.cons_append, List.append_assoc, List.singleton_append, readValue, hs]
    rfl
  | .array xs, w, h, hp, n + 1, r, hn, _ => by
    simp only [write, Option.map_eq_some_iff] at h
    obtain ⟨w, hw, rfl⟩ := h
    simp only [List.length_cons, List.length_append] at hn
    exact readValue_array hw fun hne => readElems_write xs w hne hw hp n [] r (by omega)
  | .object m, w, h, hp, n + 1, r, hn, _ => by
    simp only [write, Option.map_eq_some_iff] at h
    obtain ⟨w, hw, rfl⟩ := h
    simp only [List.length_cons, List.length_append] at hn
    exact readValue_object hw fun hne =>
      readMembers_write m w hne hw hp.2 n [] r (by omega) (by simpa using hp.1)
theorem readElems_write : ∀ (xs : List Json) (w : Bytes), xs ≠ [] → writeElems xs = some w →
    Json.PlainAll xs → ∀ (n : Nat) (acc : List Json) (r : Bytes), 2 * w.length + 1 ≤ n →
      readElems n acc (w ++ 93 :: r) = some (.array (acc ++ xs), r)
  | [], _, h, _, _, _, _, _, _ => absurd rfl h
  | _ :: _, _, _, _, _, 0, _, _, hn => absurd hn (by omega)
  | [x], w, _, h, hp, n + 1, acc, r, hn => by
    simp only [writeElems] at h
    have hx := readValue_write x w h hp.1 n (93 :: r) (by omega) (.cons (by simp) r)
    rw [readElems, hx]
    simp only [skipWs_delim (.inr (.inl rfl))]
  | x :: y :: xs, w, _, h, hp, n + 1, acc, r, hn => by
    simp only [writeElems] at h
    split at h
    · next wx ws hwx hws =>
      cases h
      simp only [List.length_append, List.length_cons] at hn
      have hx := readValue_write x wx hwx hp.1 n (44 :: (ws ++ 93 :: r)) (by omega)
        (.cons (by simp) _)
      have ih := readElems_write (y :: xs) ws (by simp) hws hp.2 n (acc ++ [x]) r (by omega)
      rw [List.append_assoc, List.cons_append, readElems, hx]
      simp only [skipWs_delim (.inl rfl), (opens_writeElems (by simp) hws).skipWs, ih,
        List.append_assoc, List.singleton_append]
    · cases h
theorem readMembers_write : ∀ (m : List (Bytes × Json)) (w : Bytes), m ≠ [] →
    writeMembers m = some w → Json.PlainFields m → ∀ (n : Nat) (acc : List (Bytes × Json))
      (r : Bytes), 2 * w.length + 1 ≤ n → KeyMap.Sorted (acc ++ m) →
        readMembers n acc (w ++ 125 :: r) = some (.object (acc ++ m), r)
  | [], _, h, _, _, _, _, _, _, _ => absurd rfl h
  | _ :: _, _, _, _, _, 0, _, _, hn, _ => absurd hn (by omega)
  | [(k, x)], w, _, h, hp, n + 1, acc, r, hn, hs => by
    simp only [writeMembers] at h
    obtain ⟨wk, wx, hwk, hwx, rfl⟩ := writeMember_eq h
    simp only [List.length_append, List.length_cons] at hn
    have hx := readValue_write x wx hwx hp.1 n (125 :: r) (by omega) (.cons (by simp) r)
    have hk := readKey_writeString hwk (wx ++ 125 :: r) ((opens_write hwx).skipWs _)
    have hlt : ∀ e ∈ acc, e.1 < k := fun e he =>
      (List.pairwise_append.mp hs).2.2 e he (k, x) (by simp)
    have hi := KeyMap.insert_of_lt hlt x
    rw [List.append_assoc, List.cons_append, readMembers, hk]
    simp only [hx, skipWs_delim (.inr (.inr rfl)), hi]
  | (k, x) :: e :: m, w, _, h, hp, n + 1, acc, r, hn, hs => by
    simp only [writeMembers] at h
    split at h
    · next wm ws hwm hws =>
      cases h
      obtain ⟨wk, wx, hwk, hwx, rfl⟩ := writeMember_eq hwm
      simp only [List.length_append, List.length_cons] at hn
      have hx := readValue_write x wx hwx hp.1 n (44 :: (ws ++ 125 :: r)) (by omega)
        (.cons (by simp) _)
      have hk := readKey_writeString hwk (wx ++ 44 :: (ws ++ 125 :: r))
        ((opens_write hwx).skipWs _)
      have hlt : ∀ e ∈ acc, e.1 < k := fun e he =>
        (List.pairwise_append.mp hs).2.2 e he (k, x) (by simp)
      have hi := KeyMap.insert_of_lt hlt x
      have ih := readMembers_write (e :: m) ws (by simp) hws hp.2 n (acc ++ [(k, x)]) r (by omega)
        (by simpa using hs)
      simp only [List.append_assoc, List.cons_append] at hk ⊢
      rw [readMembers, hk]
      simp only [hx, skipWs_delim (.inl rfl), (opens_writeMembers (by simp) hws).skipWs, hi, ih,
        List.append_assoc, List.singleton_append]
    · cases h
end

theorem read_write {j : Json} {w : Bytes} (h : write j = some w) (hp : j.Plain) :
    read w = some j := by
  have hs : skipWs w = w := by simpa using (opens_write h).skipWs []
  have hv := readValue_write j w h hp (2 * w.length + 1) [] (by omega) .nil
  rw [List.append_nil] at hv
  simp only [read, hs, hv]
  rfl

example : read (lit " \x7b\"b\": [1, -2, true], \"a\\n\": \x7b\"c\": null\x7d\x7d ") =
    some (.object [(lit "a\n", .object [(lit "c", .null)]),
      (lit "b", .array [.integer 1, .integer (-2), .boolean true])]) := by rfl

/-! ### What can be written -/

theorem writeString_of_utf8 {s : Bytes} (h : IsUtf8 s) : writeString s = some (quote s) := if_pos h

mutual
theorem write_of_utf8 : ∀ j : Json, j.Plain → j.Utf8 → ∃ w, write j = some w
  | .null, _, _ | .boolean _, _, _ | .integer _, _, _ => ⟨_, by rw [write]⟩
  | .float _, hp, _ => by simp only [Json.Plain] at hp
  | .string s, _, hu => ⟨_, by rw [write, writeString_of_utf8 hu]⟩
  | .array xs, hp, hu => by
    obtain ⟨w, hw⟩ := writeElems_of_utf8 xs hp hu
    exact ⟨_, by rw [write, hw]; rfl⟩
  | .object m, hp, hu => by
    obtain ⟨w, hw⟩ := writeMembers_of_utf8 m hp.2 hu
    exact ⟨_, by rw [write, hw]; rfl⟩
theorem writeElems_of_utf8 : ∀ xs : List Json, Json.PlainAll xs → Json.Utf8All xs →
    ∃ w, writeElems xs = some w
  | [], _, _ => ⟨_, by rw [writeElems]⟩
  | [x], hp, hu => by
    obtain ⟨w, hw⟩ := write_of_utf8 x hp.1 hu.1
    exact ⟨w, by rw [writeElems, hw]⟩
  | x :: y :: xs, hp, hu => by
    obtain ⟨w, hw⟩ := write_of_utf8 x hp.1 hu.1
    obtain ⟨ws, hws⟩ := writeElems_of_utf8 (y :: xs) hp.2 hu.2
    exact ⟨w ++ 44 :: ws, by simp only [writeElems, hw, hws]⟩
theorem writeMembers_of_utf8 : ∀ m : List (Bytes × Json), Json.PlainFields m → Json.Utf8Fields m →
    ∃ w, writeMembers m = some w
  | [], _, _ => ⟨_, by rw [writeMembers]⟩
  | [(k, x)], hp, hu => by
    obtain ⟨w, hw⟩ := write_of_utf8 x hp.1 hu.2.1
    exact ⟨quote k ++ 58 :: w, by
      simp only [writeMembers, writeMember, writeString_of_utf8 hu.1, hw]⟩
  | (k, x) :: e :: m, hp, hu => by
    obtain ⟨w, hw⟩ := write_of_utf8 x hp.1 hu.2.1
    obtain ⟨ws, hws⟩ := writeMembers_of_utf8 (e :: m) hp.2 hu.2.2
    exact ⟨quote k ++ 58 :: w ++ 44 :: ws, by
      simp only [writeMembers, writeMember, writeString_of_utf8 hu.1, hw, hws]⟩
end

theorem utf8_of_writeString {s w : Bytes} (h : writeString s = some w) : IsUtf8 s := by
  unfold writeString at h
  split_ifs at h with hu
  exact hu

mutual
theorem utf8_of_write : ∀ (j : Json) (w : Bytes), write j = some w → j.Utf8
  | .null, _, _ | .boolean _, _, _ | .integer _, _, _ | .float _, _, _ => trivial
  | .string s, w, h => by simp only [write] at h; exact utf8_of_writeString h
  | .array xs, w, h => by
    simp only [write, Option.map_eq_some_iff] at h
    obtain ⟨v, hv, -⟩ := h
    exact utf8_of_writeElems xs v hv
  | .object m, w, h => by
    simp only [write, Option.map_eq_some_iff] at h
    obtain ⟨v, hv, -⟩ := h
    exact utf8_of_writeMembers m v hv
theorem utf8_of_writeElems : ∀ (xs : List Json) (w : Bytes), writeElems xs = some w →
    Json.Utf8All xs
  | [], _, _ => trivial
  | [x], w, h => by simp only [writeElems] at h; exact ⟨utf8_of_write x w h, trivial⟩
  | x :: y :: xs, w, h => by
    simp only [writeElems] at h
    split at h
    · next wx ws hx hxs => exact ⟨utf8_of_write x wx hx, utf8_of_writeElems (y :: xs) ws hxs⟩
    · cases h
theorem utf8_of_writeMembers : ∀ (m : List (Bytes × Json)) (w : Bytes), writeMembers m = some w →
    Json.Utf8Fields m
  | [], _, _ => trivial
  | [(k, x)], w, h => by
    simp only [writeMembers] at h
    obtain ⟨wk, wx, hk, hx, -⟩ := writeMember_eq h
    exact ⟨utf8_of_writeString hk, utf8_of_write x wx hx, trivial⟩
  | (k, x) :: e :: m, w, h => by
    simp only [writeMembers] at h
    split at h
    · next wm ws hm hms =>
      obtain ⟨wk, wx, hk, hx, -⟩ := writeMember_eq hm
      exact ⟨utf8_of_writeString hk, utf8_of_write x wx hx, utf8_of_writeMembers (e :: m) ws hms⟩
    · cases h
end

end JsonText
