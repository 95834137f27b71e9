import ApiOutline.Json.Reader
import ApiOutline.Proofs.Scanning

/-!
# Texts that JSON cannot hold

Apart from its grammar there are two reasons to refuse a text of JSON: an
integer of too many digits, which stand in the text as they are
(`exists_longRun`), and more brackets than there is room for
(`exists_room_of_tooDeep`). Every function of the reader scans: it leaves an end
of what it was given, or points at a place in it. The induction is on the
budget, over values, members and elements at once. What is within a bracket has
one place less, and the bracket itself makes up for it (`Reads.opened`).
-/

namespace ApiOutline.Json

variable {cs rest : List Char} {room : Room} {fuel : Nat}

/-- Whether a character opens a bracket. -/
def isOpening (c : Char) : Bool := c == '\x7b' || c == '['

/-- The number of brackets that are opened in a text, those within strings counted too. -/
def openings (cs : List Char) : Nat := cs.countP isOpening

/-- Why reading stops at a place: the grammar is broken there, a long run of digits begins, or more
brackets follow than may be opened. -/
inductive StopsAt (room : Room) : Stop → List Char → Prop where
  | grammar (reason : Reason) (left : Nat) (place : List Char) :
      StopsAt room (.at reason left) place
  | digits {run : List Char} (h : IsLongRun run) (rest : List Char) :
      StopsAt room (.tooManyDigits run.length) (run ++ rest)
  | deep {n : Nat} {place : List Char} (hroom : room = some n) (h : n < openings place) :
      StopsAt room .tooDeep place

/-- Reading leaves an end of the text or stops at a place in it. -/
abbrev Reads {α : Type} (room : Room) (text : List Char) (x : Except Stop (α × List Char)) : Prop :=
  Scans Prod.snd (StopsAt room) text x

variable {α : Type} {text : List Char}

theorem reads_at (reason : Reason) (left : Nat) :
    Reads room (α := α) text (.error (.at reason left)) :=
  Scans.error (.grammar reason left text) (List.suffix_refl text)

theorem skipSpace_suffix (cs : List Char) : skipSpace cs <:+ cs := List.dropWhile_suffix _

theorem fourDigits_suffix {n : Nat} (h : fourDigits cs = some (n, rest)) : rest <:+ cs := by
  unfold fourDigits at h
  split at h
  · next a b c d tail =>
      split at h
      · cases h
        exact ⟨[a, b, c, d], rfl⟩
      · cases h
  · cases h

theorem reads_unicodeEscape (room : Room) (cs : List Char) : Reads room cs (unicodeEscape cs) := by
  unfold unicodeEscape
  split
  · exact reads_at _ _
  · next n rest hfirst =>
      have hrest := fourDigits_suffix hfirst
      split
      · exact reads_at _ _
      · split
        · split
          · next second _ =>
              split
              · exact hrest
              · split
                · exact reads_at _ _
                · next m after hsecond =>
                    have hafter : after <:+ '\\' :: 'u' :: second :=
                      (fourDigits_suffix hsecond).trans ⟨['\\', 'u'], rfl⟩
                    split
                    · exact hafter.trans hrest
                    · exact hrest
          · exact hrest
        · exact hrest

theorem reads_stringBody (room : Room) (start fuel : Nat) (done cs : List Char) :
    Reads room cs (stringBody start fuel done cs) := by
  fun_induction stringBody start fuel done cs with
  | case1 => exact reads_at _ _
  | case2 => exact reads_at _ _
  | case3 fuel done cs => exact List.suffix_cons _ _
  | case4 => exact reads_at _ _
  | case5 fuel done rest stop hescape hquote =>
      exact ((reads_unicodeEscape room rest).failed hescape).mono ⟨['\\', 'u'], rfl⟩
  | case6 fuel done rest x after hescape hquote ih =>
      have hafter := (reads_unicodeEscape room rest).suffix hescape
      exact ih.mono (hafter.trans ⟨['\\', 'u'], rfl⟩)
  | case7 fuel done e rest hu x hsimple hquote ih => exact ih.mono ⟨['\\', e], rfl⟩
  | case8 => exact reads_at _ _
  | case9 => exact reads_at _ _
  | case10 fuel done c cs hquote hescape hcontrol ih => exact ih.mono (List.suffix_cons c cs)

theorem reads_string (room : Room) (cs : List Char) : Reads room cs (string cs) :=
  reads_stringBody _ _ _ _ _

theorem whole_of_wholeDigits {whole : List Char} (h : wholeDigits cs = some (whole, rest)) :
    (∀ d ∈ whole, d.isDigit = true) ∧ whole ++ rest = cs := by
  unfold wholeDigits at h
  split at h
  · cases h
    exact ⟨List.forall_mem_singleton.2 rfl, rfl⟩
  · next c tail _ =>
      split at h
      · next hc =>
          cases h
          have hmore := List.all_eq_true.1 (List.all_takeWhile (p := Char.isDigit) (l := tail))
          refine ⟨List.forall_mem_cons.2 ⟨hc, hmore⟩, ?_⟩
          rw [List.cons_append, List.takeWhile_append_dropWhile]
      · cases h
  · cases h

theorem fractionDigits_suffix {fraction : List Char}
    (h : fractionDigits cs = some (fraction, rest)) : rest <:+ cs := by
  unfold fractionDigits at h
  split at h
  · split at h
    · cases h
    · cases h
      exact (List.dropWhile_suffix _).trans (List.suffix_cons _ _)
  · cases h

theorem splitSign_suffix (cs : List Char) : (Decimal.splitSign cs).2 <:+ cs := by
  unfold Decimal.splitSign
  split
  · exact List.suffix_cons _ _
  · exact List.suffix_cons _ _
  · exact List.suffix_refl _

theorem exponentDigits_suffix {e : Int} (h : exponentDigits cs = some (e, rest)) :
    rest <:+ cs := by
  unfold exponentDigits at h
  split at h
  · next c tail =>
      split at h
      · simp only [] at h
        split at h
        · cases h
        · cases h
          exact (List.dropWhile_suffix _).trans
            ((splitSign_suffix tail).trans (List.suffix_cons c tail))
      · cases h
  · cases h

theorem reads_unsigned {negative : Bool} {x : Except Stop (Value × List Char)}
    (h : unsigned negative cs = some x) : Reads room cs x := by
  obtain ⟨⟨whole, afterWhole⟩, hwhole, rfl⟩ := Option.map_eq_some_iff.1 h
  have hlong (hlimit : Decimal.digitLimit < whole.length) : Reads room (α := Value) cs
      (.error (.tooManyDigits whole.length)) := by
    obtain ⟨hdigits, hsplit⟩ := whole_of_wholeDigits hwhole
    refine ⟨cs, List.suffix_refl cs, ?_⟩
    rw [← hsplit]
    exact .digits ⟨hdigits, hlimit⟩ afterWhole
  have hafter : afterWhole <:+ cs := ⟨whole, (whole_of_wholeDigits hwhole).2⟩
  simp only []
  split
  · split
    · next hlimit => exact hlong hlimit
    · exact hafter
  · next fraction rest hfraction _ => exact (fractionDigits_suffix hfraction).trans hafter
  · next e rest hfraction hexponent =>
      rw [hfraction] at hexponent
      exact (exponentDigits_suffix hexponent).trans hafter
  · next fraction point e rest hfraction hexponent =>
      rw [hfraction] at hexponent
      exact (exponentDigits_suffix hexponent).trans ((fractionDigits_suffix hfraction).trans hafter)

theorem reads_scalar (cs : List Char) : Reads room cs (scalar cs) := by
  unfold scalar
  split
  · exact List.drop_suffix _ _
  · split
    · next answer hanswer =>
        split at hanswer
        · exact (reads_unsigned hanswer).mono (List.suffix_cons _ _)
        · exact reads_unsigned hanswer
    · exact reads_at _ _

/-- A bracket that may be opened makes up for the place that is lost within it. -/
theorem Reads.opened {β : Type} {c : Char} {tail body : List Char} {stop : Stop}
    {x : Except Stop (α × List Char)} (hc : isOpening c = true) (hroom : room.isFull = false)
    (hbody : body <:+ tail) (h : Reads room.within body x) (hx : x = .error stop) :
    Reads room (c :: tail) (.error stop : Except Stop (β × List Char)) := by
  obtain ⟨place, hplace, hstops⟩ := h.cause hx
  have hsuffix := (hplace.trans hbody).trans (List.suffix_cons c tail)
  cases hstops with
  | grammar reason left => exact ⟨place, hsuffix, .grammar reason left place⟩
  | digits hrun rest => exact ⟨_, hsuffix, .digits hrun rest⟩
  | @deep n _ hwithin hmany =>
      obtain ⟨m, rfl, hm⟩ := Option.map_eq_some_iff.1 hwithin
      have hpos : m ≠ 0 := by
        rintro rfl
        cases hroom
      have hinner : openings place ≤ openings tail :=
        (hplace.trans hbody).sublist.countP_le
      refine ⟨c :: tail, List.suffix_refl _, .deep rfl ?_⟩
      rw [openings, List.countP_cons_of_pos hc]
      rw [openings, openings] at hinner
      rw [openings] at hmany
      omega

theorem reads_full {c : Char} {tail : List Char} (hc : isOpening c = true)
    (hroom : room.isFull = true) :
    Reads room (c :: tail) (.error .tooDeep : Except Stop (α × List Char)) := by
  refine ⟨c :: tail, List.suffix_refl _, .deep (eq_of_beq hroom) ?_⟩
  rw [openings, List.countP_cons_of_pos hc]
  exact Nat.succ_pos _

/-- What one more step of the budget does to a value, from what is read within it. -/
theorem reads_value (hmembers : ∀ room cs, Reads room cs (members room fuel cs))
    (helements : ∀ room cs, Reads room cs (elements room fuel cs)) (room : Room)
    (cs : List Char) : Reads room cs (value room (fuel + 1) cs) := by
  unfold value
  split
  · next hzero => cases hzero
  · next tail _ =>
      have htail := (reads_string room tail).mono (List.suffix_cons '"' tail)
      split
      · next s rest hread => exact htail.suffix hread
      · next stop hread => exact htail.failed hread
  · next tail hfuel =>
      cases hfuel
      split
      · next hfull => exact reads_full rfl hfull
      · next hroom =>
          have hbody := (skipSpace_suffix tail).trans (List.suffix_cons '\x7b' tail)
          split
          · next rest hclose =>
              rw [hclose] at hbody
              exact (List.suffix_cons _ _).trans hbody
          · have hinner := hmembers room.within (skipSpace tail)
            split
            · next ms rest hread => exact (hinner.suffix hread).trans hbody
            · next stop hread =>
                exact hinner.opened rfl (Bool.eq_false_iff.2 hroom) (skipSpace_suffix tail) hread
  · next tail hfuel =>
      cases hfuel
      split
      · next hfull => exact reads_full rfl hfull
      · next hroom =>
          have hbody := (skipSpace_suffix tail).trans (List.suffix_cons '[' tail)
          split
          · next rest hclose =>
              rw [hclose] at hbody
              exact (List.suffix_cons _ _).trans hbody
          · have hinner := helements room.within (skipSpace tail)
            split
            · next vs rest hread => exact (hinner.suffix hread).trans hbody
            · next stop hread =>
                exact hinner.opened rfl (Bool.eq_false_iff.2 hroom) (skipSpace_suffix tail) hread
  · exact reads_scalar _

theorem reads_members (hvalue : ∀ cs, Reads room cs (value room fuel cs))
    (hmembers : ∀ cs, Reads room cs (members room fuel cs)) (cs : List Char) :
    Reads room cs (members room (fuel + 1) cs) := by
  unfold members
  split
  · exact reads_at _ _
  · next tail hfuel =>
      cases hfuel
      have hname := (reads_string room tail).mono (List.suffix_cons '"' tail)
      split
      · next stop hread => exact hname.failed hread
      · next name afterName hread =>
          have hafterName := (skipSpace_suffix afterName).trans (hname.suffix hread)
          split
          · next afterColon hcolon =>
              rw [hcolon] at hafterName
              have hplace := (skipSpace_suffix afterColon).trans
                ((List.suffix_cons ':' afterColon).trans hafterName)
              have hmember := (hvalue (skipSpace afterColon)).mono hplace
              split
              · next stop hread => exact hmember.failed hread
              · next v afterValue hread =>
                  have hafterValue := (skipSpace_suffix afterValue).trans (hmember.suffix hread)
                  split
                  · next rest hclose =>
                      rw [hclose] at hafterValue
                      exact (List.suffix_cons _ rest).trans hafterValue
                  · next rest hcomma =>
                      rw [hcomma] at hafterValue
                      have hnext := (List.suffix_cons _ rest).trans hafterValue
                      have hmore :=
                        (hmembers (skipSpace rest)).mono ((skipSpace_suffix rest).trans hnext)
                      split
                      · next ms left hread =>
                          have hleft := hmore.suffix hread
                          exact hleft
                      · next stop hread => exact hmore.failed hread
                  · exact reads_at _ _
          · exact reads_at _ _
  · exact reads_at _ _

theorem reads_elements (hvalue : ∀ cs, Reads room cs (value room fuel cs))
    (helements : ∀ cs, Reads room cs (elements room fuel cs)) (cs : List Char) :
    Reads room cs (elements room (fuel + 1) cs) := by
  have helement := hvalue cs
  unfold elements
  split
  · next stop hread => exact helement.failed hread
  · next v afterValue hread =>
      have hafterValue := (skipSpace_suffix afterValue).trans (helement.suffix hread)
      split
      · next rest hclose =>
          rw [hclose] at hafterValue
          exact (List.suffix_cons _ rest).trans hafterValue
      · next rest hcomma =>
          rw [hcomma] at hafterValue
          have hmore := (helements (skipSpace rest)).mono
            ((skipSpace_suffix rest).trans ((List.suffix_cons _ rest).trans hafterValue))
          split
          · next vs left hread =>
              have hleft := hmore.suffix hread
              exact hleft
          · next stop hread => exact hmore.failed hread
      · exact reads_at _ _

/-- Whatever the budget, reading leaves an end of the text or stops at a place in it. -/
theorem reads_all (fuel : Nat) :
    (∀ room cs, Reads room cs (value room fuel cs)) ∧
    (∀ room cs, Reads room cs (members room fuel cs)) ∧
    ∀ room cs, Reads room cs (elements room fuel cs) := by
  induction fuel with
  | zero =>
      refine ⟨fun room cs => ?_, fun room cs => ?_, fun room cs => ?_⟩
      · unfold value
        exact reads_at _ _
      · unfold members
        exact reads_at _ _
      · unfold elements
        exact reads_at _ _
  | succ fuel ih =>
      obtain ⟨hvalue, hmembers, helements⟩ := ih
      exact ⟨reads_value hmembers helements,
        fun room => reads_members (hvalue room) (hmembers room),
        fun room => reads_elements (hvalue room) (helements room)⟩

/-- Whole texts are read as values are, which stop at a place in the text. -/
theorem exists_place_of_value {text : String} {stop : Stop}
    (h : value room fuel (skipSpace text.toList) = .error stop) :
    ∃ place, place <:+ text.toList ∧ StopsAt room stop place := by
  obtain ⟨place, hplace, hstops⟩ := ((reads_all fuel).1 room _).cause h
  exact ⟨place, hplace.trans (skipSpace_suffix _), hstops⟩

/-- If a text is refused for an integer, the digits stand in it. -/
theorem exists_longRun {text : String} {count : Nat}
    (h : parseWithin room text = .error (.tooManyDigits count)) :
    ∃ run, run <:+: text.toList ∧ IsLongRun run := by
  unfold parseWithin at h
  simp only [] at h
  split at h
  · cases h
  · split at h
    · cases h
    · next stopped hread =>
        cases h
        obtain ⟨place, hplace, hstops⟩ := exists_place_of_value hread
        cases hstops with
        | digits hrun rest =>
            exact ⟨_, List.IsInfix.trans ⟨[], rest, rfl⟩ hplace.isInfix, hrun⟩
    · cases h
    · split at h <;> cases h

/-- If a text is nested too deep, there is limited room, and more brackets are opened than it
has. -/
theorem exists_room_of_tooDeep {text : String} (h : parseWithin room text = .error .tooDeep) :
    ∃ n, room = some n ∧ n < openings text.toList := by
  unfold parseWithin at h
  simp only [] at h
  split at h
  · cases h
  · split at h
    · cases h
    · cases h
    · next hread =>
        obtain ⟨place, hplace, hstops⟩ := exists_place_of_value hread
        cases hstops with
        | deep hroom hmany => exact ⟨_, hroom, Nat.lt_of_lt_of_le hmany hplace.sublist.countP_le⟩
    · split at h <;> cases h

/-- One bracket more than there is room for is too deep, whatever follows. -/
theorem value_of_brackets (n : Nat) (rest : List Char) (hfuel : 2 * n < fuel) :
    value (some n) fuel (List.replicate (n + 1) '[' ++ rest) = .error .tooDeep := by
  induction n generalizing fuel with
  | zero =>
      obtain ⟨fuel, rfl⟩ : ∃ k, fuel = k + 1 := ⟨fuel - 1, by omega⟩
      rfl
  | succ n ih =>
      obtain ⟨fuel, rfl⟩ : ∃ k, fuel = k + 2 := ⟨fuel - 2, by omega⟩
      have hskip : skipSpace (List.replicate (n + 1) '[' ++ rest) =
          List.replicate (n + 1) '[' ++ rest := rfl
      have helements : elements (Room.within (some (n + 1))) (fuel + 1)
          (List.replicate (n + 1) '[' ++ rest) = .error .tooDeep := by
        have hinner : value (Room.within (some (n + 1))) fuel
            (List.replicate (n + 1) '[' ++ rest) = .error .tooDeep := ih (by omega)
        rw [elements, hinner]
      rw [List.replicate_succ, List.cons_append, value, if_neg (by simp [Room.isFull])]
      split
      · next heq => cases heq
      · rw [hskip, helements]

theorem parseWithin_of_brackets (n : Nat) :
    parseWithin (some n) (String.ofList (List.replicate (n + 1) '[')) = .error .tooDeep := by
  have hvalue : value (some n) (2 * (List.replicate (n + 1) '[').length + 2)
      (List.replicate (n + 1) '[' ++ []) = .error .tooDeep :=
    value_of_brackets n [] (by rw [List.length_replicate]; omega)
  rw [List.append_nil] at hvalue
  unfold parseWithin
  simp only [String.toList_ofList]
  split
  · next heq => cases heq
  · have hskip : skipSpace (List.replicate (n + 1) '[') = List.replicate (n + 1) '[' := rfl
    rw [hskip, hvalue]

/-- Without a limit nothing is nested too deep. -/
theorem parse_ne_tooDeep (text : String) : parse text ≠ .error .tooDeep := by
  intro h
  obtain ⟨n, hroom, -⟩ := exists_room_of_tooDeep h
  cases hroom

end ApiOutline.Json
