import Kpacket.JsonText

/-!
# A text spliced into a JSON literal

`{"k": "m"}` with the bytes of `m` put between the quotation marks as they are: it reads as the
object with the single string `m` exactly if `m` needs no escaping (`read_splice_iff`). The forward
direction is a count: a string is never longer than the literal it is read from, and the braces
leave one byte of room.
-/

namespace JsonText

theorem length_dropWhile (p : UInt8 → Bool) (s : Bytes) : (s.dropWhile p).length ≤ s.length :=
  (List.dropWhile_sublist p).length_le

theorem length_skipWs (s : Bytes) : (skipWs s).length ≤ s.length := length_dropWhile isWs s

theorem readFraction_length {s r : Bytes} {fs : Option Bytes}
    (h : readFraction s = some (fs, r)) : r.length ≤ s.length := by
  unfold readFraction at h
  split at h
  · next s =>
    split_ifs at h
    cases h
    exact Nat.le_succ_of_le (length_dropWhile ..)
  · cases h; exact Nat.le_refl _

theorem readSign_length (s : Bytes) : (readSign s).2.length ≤ s.length := by
  unfold readSign
  split <;> simp

theorem readExponent_length {s r : Bytes} {e : Option Int}
    (h : readExponent s = some (e, r)) : r.length ≤ s.length := by
  cases s with
  | nil => cases h; exact Nat.le_refl _
  | cons c s =>
    simp only [readExponent] at h
    split_ifs at h
    · cases h
      have h1 := readSign_length s
      have h2 := length_dropWhile isDigit (readSign s).2
      simp only [List.length_cons]; omega
    · cases h
      have h1 := readSign_length s
      have h2 := length_dropWhile isDigit (readSign s).2
      simp only [List.length_cons]; omega
    · cases h; exact Nat.le_refl _

theorem readUnsigned_length {neg : Bool} {s r : Bytes} {x : Json}
    (h : readUnsigned neg s = some (x, r)) : r.length ≤ s.length := by
  simp only [readUnsigned] at h
  split_ifs at h
  split at h
  · cases h
  · next fs t hf =>
    obtain ⟨⟨e, r'⟩, he, hr⟩ := Option.map_eq_some_iff.mp h
    obtain ⟨-, rfl⟩ := Prod.mk.inj hr
    exact (readExponent_length he).trans
      ((readFraction_length hf).trans (length_dropWhile isDigit s))

theorem readNumber_length {s r : Bytes} {x : Json} (h : readNumber s = some (x, r)) :
    r.length ≤ s.length := by
  unfold readNumber at h
  split at h
  · have := readUnsigned_length h
    simp only [List.length_cons]; omega
  · exact readUnsigned_length h

theorem readKey_length {s r k : Bytes} (h : readKey s = some (k, r)) : r.length ≤ s.length := by
  unfold readKey at h
  split at h
  · split at h
    · cases h
    · next s k' r' hs =>
      split at h
      · next r'' hr =>
        cases h
        have h1 := scan_length hs
        have h2 := length_skipWs r'
        have h3 := length_skipWs r''
        rw [hr] at h2
        simp only [List.length_cons, Lit.credit] at *
        omega
      · cases h
  · cases h

theorem read_length (n : Nat) :
    (∀ s x r, readValue n s = some (x, r) → r.length ≤ s.length) ∧
      (∀ acc s x r, readElems n acc s = some (x, r) → r.length ≤ s.length) ∧
      ∀ acc s x r, readMembers n acc s = some (x, r) → r.length ≤ s.length := by
  induction n with
  | zero => simp [readValue, readElems, readMembers]
  | succ n ih =>
    obtain ⟨ihv, ihe, ihm⟩ := ih
    refine ⟨fun s x r h => ?_, fun acc s x r h => ?_, fun acc s x r h => ?_⟩
    · unfold readValue at h
      split at h
      · next s =>
        obtain ⟨⟨v, r'⟩, hs, he⟩ := Option.map_eq_some_iff.mp h
        cases he
        have := scan_length hs
        simp only [List.length_cons, Lit.credit] at *; omega
      · next s =>
        have hw := length_skipWs s
        split at h
        · next r' hs => cases h; rw [hs] at hw; simp only [List.length_cons] at *; omega
        · have := ihe _ _ _ _ h
          simp only [List.length_cons]; omega
      · next s =>
        have hw := length_skipWs s
        split at h
        · next r' hs => cases h; rw [hs] at hw; simp only [List.length_cons] at *; omega
        · have := ihm _ _ _ _ h
          simp only [List.length_cons]; omega
      · cases h; simp only [List.length_cons]; omega
      · cases h; simp only [List.length_cons]; omega
      · cases h; simp only [List.length_cons]; omega
      · exact readNumber_length h
    · unfold readElems at h
      split at h
      · cases h
      · next y t hv =>
        have h1 := ihv _ _ _ hv
        have hw := length_skipWs t
        split at h
        · next t' ht =>
          have h2 := ihe _ _ _ _ h
          have h3 := length_skipWs t'
          rw [ht] at hw; simp only [List.length_cons] at *; omega
        · next t' ht => cases h; rw [ht] at hw; simp only [List.length_cons] at *; omega
        · cases h
    · unfold readMembers at h
      split at h
      · cases h
      · next k u hk =>
        have h0 := readKey_length hk
        split at h
        · cases h
        · next y t hv =>
          have h1 := ihv _ _ _ hv
          have hw := length_skipWs t
          split at h
          · next t' ht =>
            have h2 := ihm _ _ _ _ h
            have h3 := length_skipWs t'
            rw [ht] at hw; simp only [List.length_cons] at *; omega
          · next t' ht => cases h; rw [ht] at hw; simp only [List.length_cons] at *; omega
          · cases h

theorem number_ne_string (neg : Bool) (ds : Bytes) (fs : Option Bytes) (e : Option Int)
    (t : Bytes) : number neg ds fs e ≠ .string t := by
  unfold number
  split <;> simp

theorem readNumber_ne_string {s t r : Bytes} : readNumber s ≠ some (.string t, r) := by
  have key : ∀ (neg : Bool) (s : Bytes), readUnsigned neg s ≠ some (.string t, r) := by
    intro neg s h
    simp only [readUnsigned] at h
    split_ifs at h
    split at h
    · cases h
    · obtain ⟨_, -, hr⟩ := Option.map_eq_some_iff.mp h
      exact number_ne_string _ _ _ _ _ (Prod.mk.inj hr).1
  unfold readNumber
  split <;> exact key _ _

theorem read_compound (n : Nat) :
    (∀ acc s x r, readElems n acc s = some (x, r) → ∃ xs, x = .array xs) ∧
      ∀ acc s x r, readMembers n acc s = some (x, r) → ∃ m, x = .object m := by
  induction n with
  | zero => simp [readElems, readMembers]
  | succ n ih =>
    refine ⟨fun acc s x r h => ?_, fun acc s x r h => ?_⟩
    · unfold readElems at h
      split at h
      · cases h
      · split at h
        · exact ih.1 _ _ _ _ h
        · cases h; exact ⟨_, rfl⟩
        · cases h
    · unfold readMembers at h
      split at h
      · cases h
      · split at h
        · cases h
        · split at h
          · exact ih.2 _ _ _ _ h
          · cases h; exact ⟨_, rfl⟩
          · cases h

theorem readValue_string {n : Nat} {s t r : Bytes} (h : readValue n s = some (.string t, r)) :
    ∃ s', s = 34 :: s' ∧ scan (.text .start) s' = some (t, r) := by
  cases n with
  | zero => simp [readValue] at h
  | succ n =>
    unfold readValue at h
    split at h
    · next s =>
      obtain ⟨⟨v, r'⟩, hs, he⟩ := Option.map_eq_some_iff.mp h
      cases he
      exact ⟨s, rfl, hs⟩
    · split at h
      · cases h
      · obtain ⟨xs, hx⟩ := (read_compound n).1 _ _ _ _ h
        cases hx
    · split at h
      · cases h
      · obtain ⟨m, hm⟩ := (read_compound n).2 _ _ _ _ h
        cases hm
    · cases h
    · cases h
    · cases h
    · exact absurd h readNumber_ne_string

/-- A string among the members of an object was there before or is shorter than their text, by its
two quotation marks at least. -/
theorem readMembers_string (n : Nat) : ∀ {acc : List (Bytes × Json)} {s r : Bytes} {j : Json},
    readMembers n acc s = some (j, r) → ∀ {k t : Bytes}, j.lookup k = some (.string t) →
      KeyMap.lookup k acc = some (.string t) ∨ t.length + 2 ≤ s.length := by
  induction n with
  | zero => intro acc s r j h; simp [readMembers] at h
  | succ n ih =>
    intro acc s r j h k t hk
    unfold readMembers at h
    split at h
    · cases h
    · next k' u hkey =>
      have h0 := readKey_length hkey
      split at h
      · cases h
      · next y v hv =>
        have h1 := (read_length n).1 _ _ _ hv
        have hw := length_skipWs v
        -- the member read last counts if its key is `k`
        have hmem : KeyMap.lookup k (KeyMap.insert k' y acc) = some (.string t) →
            KeyMap.lookup k acc = some (.string t) ∨ t.length + 2 ≤ s.length := by
          intro hl
          rw [KeyMap.lookup_insert] at hl
          split_ifs at hl with hkk
          · cases hl
            obtain ⟨u', rfl, hs⟩ := readValue_string hv
            have := scan_length hs
            simp only [List.length_cons, Lit.credit] at *
            right; omega
          · exact .inl hl
        split at h
        · next u' hu =>
          have h3 := length_skipWs u'
          rw [hu] at hw
          simp only [List.length_cons] at hw
          rcases ih h hk with hl | hl
          · exact hmem hl
          · right; omega
        · next u' hu => cases h; exact hmem hk
        · cases h

theorem readMembers_keeps (n : Nat) : ∀ {acc : List (Bytes × Json)} {s r : Bytes} {j : Json},
    readMembers n acc s = some (j, r) → ∀ {k : Bytes}, (KeyMap.lookup k acc).isSome = true →
      (j.lookup k).isSome = true := by
  induction n with
  | zero => intro acc s r j h; simp [readMembers] at h
  | succ n ih =>
    intro acc s r j h k hk
    unfold readMembers at h
    split at h
    · cases h
    · next k' u hkey =>
      split at h
      · cases h
      · next y v hv =>
        have hins : (KeyMap.lookup k (KeyMap.insert k' y acc)).isSome = true := by
          rw [KeyMap.lookup_insert]
          split_ifs
          · rfl
          · exact hk
        split at h
        · exact ih h hins
        · cases h; exact hins
        · cases h

/-- The literal with the bytes of `m` between its last two quotation marks. -/
def splice (k m : Bytes) : Bytes :=
  123 :: 34 :: (k ++ 34 :: 58 :: 32 :: 34 :: (m ++ [34, 125]))

theorem readKey_plain {k : Bytes} (hk : ∀ c ∈ k, PlainByte c) (hu : IsUtf8 k) (s : Bytes) :
    readKey (34 :: (k ++ 34 :: 58 :: 32 :: 34 :: s)) = some (k, 34 :: s) := by
  simp only [readKey, scan_plain hk hu]
  rfl

theorem read_splice_members {k m : Bytes} :
    ∃ n, read (splice k m) =
      (readMembers (n + 2) [] (34 :: (k ++ 34 :: 58 :: 32 :: 34 :: (m ++ [34, 125])))).bind
        fun p => if skipWs p.2 = [] then some p.1 else none := by
  obtain ⟨n, hn⟩ : ∃ n, 2 * (splice k m).length = n + 2 := ⟨_, by simp [splice]; rfl⟩
  refine ⟨n, ?_⟩
  have h1 : ∀ s, skipWs (123 :: s) = 123 :: s := fun s => List.dropWhile_cons_of_neg (by decide)
  have h2 : ∀ s, skipWs (34 :: s) = 34 :: s := fun s => List.dropWhile_cons_of_neg (by decide)
  have hv : readValue (n + 3) (splice k m) =
      readMembers (n + 2) [] (34 :: (k ++ 34 :: 58 :: 32 :: 34 :: (m ++ [34, 125]))) := by
    rw [splice, readValue, h2]
    rfl
  rw [read, hn, show skipWs (splice k m) = splice k m from h1 _, hv]
  cases readMembers (n + 2) [] (34 :: (k ++ 34 :: 58 :: 32 :: 34 :: (m ++ [34, 125]))) <;> rfl

theorem lookup_of_read_splice {k m : Bytes} {j : Json} (hk : ∀ c ∈ k, PlainByte c)
    (hku : IsUtf8 k) (h : read (splice k m) = some j) : (j.lookup k).isSome = true := by
  obtain ⟨n, hn⟩ := read_splice_members (k := k) (m := m)
  rw [hn, readMembers, readKey_plain hk hku] at h
  obtain ⟨⟨j', r⟩, hm, hj⟩ := Option.bind_eq_some_iff.mp h
  split_ifs at hj
  cases hj
  simp only at hm
  split at hm
  · cases hm
  · next x t hv =>
    have hins : (KeyMap.lookup k (KeyMap.insert k x [])).isSome = true := by
      rw [KeyMap.lookup_insert_self]; rfl
    split at hm
    · exact readMembers_keeps _ hm hins
    · cases hm; exact hins
    · cases hm

theorem read_splice {k m : Bytes} (hk : ∀ c ∈ k, PlainByte c) (hku : IsUtf8 k)
    (hm : ∀ c ∈ m, PlainByte c) (hu : IsUtf8 m) :
    read (splice k m) = some (.object [(k, .string m)]) := by
  obtain ⟨n, hn⟩ := read_splice_members (k := k) (m := m)
  have hv : readValue (n + 1) (34 :: (m ++ [34, 125])) = some (.string m, [125]) := by
    rw [readValue, scan_plain hm hu]
    rfl
  rw [hn, readMembers, readKey_plain hk hku]
  simp only [hv]
  rfl

/-- A spliced text is read as the object with that one string exactly if it needs no escaping. -/
theorem read_splice_iff {k m : Bytes} (hk : ∀ c ∈ k, PlainByte c) (hku : IsUtf8 k) :
    read (splice k m) = some (.object [(k, .string m)]) ↔
      (∀ c ∈ m, PlainByte c) ∧ IsUtf8 m := by
  refine ⟨fun h => ?_, fun h => read_splice hk hku h.1 h.2⟩
  obtain ⟨n, hn⟩ := read_splice_members (k := k) (m := m)
  rw [hn, readMembers, readKey_plain hk hku] at h
  obtain ⟨⟨j, r⟩, hm, hj⟩ := Option.bind_eq_some_iff.mp h
  split_ifs at hj with hr
  cases hj
  simp only at hm
  split at hm
  · cases hm
  · next x t hv =>
    have hw := length_skipWs t
    rw [readValue] at hv
    obtain ⟨⟨v, t'⟩, hs, he⟩ := Option.map_eq_some_iff.mp hv
    cases he
    have hlen := scan_length hs
    simp only [List.length_append, List.length_cons, List.length_nil, Lit.credit] at hlen
    split at hm
    · next s hs' =>
      -- behind a comma there is no room for `m` once more, nor for any key
      rw [hs'] at hw
      have hw' := length_skipWs s
      simp only [List.length_cons] at hw
      rcases readMembers_string _ hm (k := k) (t := m) (by simp [Json.lookup, KeyMap.lookup])
        with hl | hl
      · rw [KeyMap.lookup_insert_self] at hl
        cases hl
        have hnil : skipWs s = [] := List.eq_nil_of_length_eq_zero (by simp only at hlen; omega)
        rw [hnil] at hm
        simp [readMembers, readKey] at hm
      · omega
    · next s hs' =>
      cases hm
      rw [hs'] at hw
      simp only [List.length_cons] at hw
      simp only at hlen hw
      obtain ⟨-, hp, hu⟩ := scan_tight hs (by
        simp only [List.length_append, List.length_cons, List.length_nil]; omega)
      exact ⟨hp, hu⟩
    · cases hm

end JsonText
