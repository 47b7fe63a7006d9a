import Mathlib.Data.List.Chain
import Forecast.Proofs.Calendar.Pattern
import Forecast.Proofs.Calendar.Written

namespace Forecast.Written

structure IsNumeral (n : Nat) (text : List Char) : Prop where
  ne_nil : text ≠ []
  isDigit : ∀ c ∈ text, c.isDigit
  value : Text.digitsValue text = n

theorem IsNumeral.readDigits? {n limit : Nat} {digits rest : List Char} (h : IsNumeral n digits)
    (hlimit : digits.length ≤ limit) (hrest : NoDigit rest) :
    readDigits? limit (digits ++ rest) = some (n, rest) := by
  have hpos := List.length_pos_iff.mpr h.ne_nil
  rw [readDigits?_append h.isDigit h.ne_nil hrest (by omega), List.take_of_length_le hlimit,
    List.drop_eq_nil_of_le hlimit, h.value, List.nil_append]

def nameOf (month : Nat) : List Char := monthNames.getD (month - 1) []

/-- What an item may write for a date: a year of up to four digits or with a sign, one or two digits
for month or day, letters in either case, and at least one blank. -/
inductive Item.Spells (d : Date) : Item → List Char → Prop
  | year {v : List Char} (h : IsNumeral d.year.natAbs v) (hlength : v.length ≤ 4)
      (hyear : 0 ≤ d.year) : Spells d .year v
  | plus {v : List Char} (h : IsNumeral d.year.natAbs v) (hyear : 0 ≤ d.year) :
      Spells d .year ('+' :: v)
  | minus {v : List Char} (h : IsNumeral d.year.natAbs v) (hyear : d.year ≤ 0) :
      Spells d .year ('-' :: v)
  | month {v : List Char} (h : IsNumeral d.month v) (hlength : v.length ≤ 2) : Spells d .month v
  | day {v : List Char} (h : IsNumeral d.day v) (hlength : v.length ≤ 2) : Spells d .day v
  | shortName {v : List Char} (h : v.map Char.toLower = (nameOf d.month).take 3) :
      Spells d .shortName v
  | fullName {v : List Char} (h : v.map Char.toLower = nameOf d.month) : Spells d .fullName v
  | blanks {v : List Char} (hne : v ≠ []) (h : ∀ c ∈ v, Text.isBlank c) : Spells d .blanks v
  | mark (c : Char) : Spells d (.mark c) [c]

inductive Format.Spells (d : Date) : Format → List Char → Prop
  | nil : Spells d [] []
  | cons {item : Item} {items : Format} {v w : List Char} (hv : item.Spells d v)
      (hw : Spells d items w) : Spells d (item :: items) (v ++ w)

def Item.Opens (c : Char) : Item → Prop
  | .year => c.isDigit ∨ c = '+' ∨ c = '-'
  | .month | .day => c.isDigit
  | .shortName | .fullName => c.isAlpha
  | .blanks => Text.isBlank c
  | .mark m => c = m

def Item.StopsAt (c : Char) : Item → Prop
  | .year | .month | .day => c.isDigit = false
  | .blanks => Text.isBlank c = false
  | _ => True

def Item.Precedes (item next : Item) : Prop := ∀ c, next.Opens c → item.StopsAt c

def Item.fill (d : Date) (fields : Fields) : Item → Fields
  | .year => { fields with year := d.year }
  | .month | .shortName | .fullName => { fields with month := d.month }
  | .day => { fields with day := d.day }
  | .blanks | .mark _ => fields

theorem nameOf_mem {month : Nat} (h : 1 ≤ month ∧ month ≤ 12) : nameOf month ∈ monthNames := by
  have hall : ∀ m < 13, 1 ≤ m → nameOf m ∈ monthNames := by decide +kernel
  exact hall month (by omega) h.1

theorem monthOfLetters?_nameOf {month : Nat} (h : 1 ≤ month ∧ month ≤ 12) :
    monthOfLetters? ((nameOf month).take 3) = some month := by
  have hall : ∀ m < 13, 1 ≤ m → monthOfLetters? ((nameOf m).take 3) = some m := by decide +kernel
  exact hall month (by omega) h.1

variable {d : Date} {item : Item} {v rest : List Char}

theorem Item.Spells.exists_cons (h : item.Spells d v) : ∃ c w, v = c :: w ∧ item.Opens c := by
  have hdigit : ∀ {n : Nat} {v : List Char}, IsNumeral n v → ∃ c w, v = c :: w ∧ c.isDigit := by
    intro n v hn
    obtain ⟨c, w, rfl⟩ := List.exists_cons_of_ne_nil hn.ne_nil
    exact ⟨c, w, rfl, hn.isDigit c List.mem_cons_self⟩
  have hletter : ∀ {v name : List Char}, v.map Char.toLower = name → name ≠ [] →
      (∀ c ∈ name, c.isAlpha) → ∃ c w, v = c :: w ∧ c.isAlpha := by
    rintro v name rfl hne hname
    obtain ⟨c, w, rfl⟩ := List.exists_cons_of_ne_nil (mt List.map_eq_nil_iff.mpr hne)
    exact ⟨c, w, rfl, Text.isAlpha_of_toLower (hname _ List.mem_cons_self)⟩
  obtain ⟨hlength, hname⟩ := monthNames_letters _ (nameOf_mem d.month_mem)
  cases h with
  | year h =>
      obtain ⟨c, w, hv, hc⟩ := hdigit h
      exact ⟨c, w, hv, .inl hc⟩
  | plus => exact ⟨_, _, rfl, .inr (.inl rfl)⟩
  | minus => exact ⟨_, _, rfl, .inr (.inr rfl)⟩
  | month h => exact hdigit h
  | day h => exact hdigit h
  | shortName h =>
      refine hletter h ?_ fun c hc => hname c (List.mem_of_mem_take hc)
      exact List.ne_nil_of_length_pos (by rw [List.length_take]; omega)
  | fullName h => exact hletter h (List.ne_nil_of_length_pos (by omega)) hname
  | blanks hne h =>
      obtain ⟨c, w, rfl⟩ := List.exists_cons_of_ne_nil hne
      exact ⟨c, w, rfl, h c List.mem_cons_self⟩
  | mark c => exact ⟨c, [], rfl, rfl⟩

theorem readShortName?_append (h : v.map Char.toLower = (nameOf d.month).take 3)
    (rest : List Char) : readShortName? (v ++ rest) = some (d.month, rest) := by
  have hlength : v.length = 3 := by
    have := (monthNames_letters _ (nameOf_mem d.month_mem)).1
    rw [← List.length_map (f := Char.toLower), h, List.length_take]
    omega
  rw [readShortName?, ← hlength, List.take_left, List.drop_left, h,
    monthOfLetters?_nameOf d.month_mem, Option.map_some]

theorem readFullName?_append (h : v.map Char.toLower = nameOf d.month) (rest : List Char) :
    readFullName? (v ++ rest) = some (d.month, rest) := by
  have hshort := readShortName?_append (v := v.take 3) (d := d) (by rw [List.map_take, h])
    (v.drop 3 ++ rest)
  have hending : (v.drop 3).map Char.toLower = nameEnding d.month := by rw [List.map_drop, h]; rfl
  have hlength : (nameEnding d.month).length = (v.drop 3).length := by
    rw [← hending, List.length_map]
  rw [← List.append_assoc, List.take_append_drop] at hshort
  rw [readFullName?, hshort]
  simp only [bind, Option.bind, hlength, List.take_left, List.drop_left, hending, if_true]

theorem readYear?_append {n : Nat} (h : IsNumeral n v) (hlength : v.length ≤ 4)
    (hrest : NoDigit rest) : readYear? (v ++ rest) = some ((n : Int), rest) := by
  rw [readYear?_digits (skipBlanks_digits h.isDigit h.ne_nil rest) h.isDigit h.ne_nil hrest,
    List.take_of_length_le hlength, List.drop_eq_nil_of_le hlength, h.value, List.nil_append]

theorem readPart?_append {n max : Nat} (h : IsNumeral n v) (hlength : v.length ≤ 2)
    (hrest : NoDigit rest) (hn : 1 ≤ n ∧ n ≤ max) : readPart? max (v ++ rest) = some (n, rest) := by
  rw [readPart?, skipBlanks_digits h.isDigit h.ne_nil, h.readDigits? hlength hrest]
  exact if_pos hn

theorem readYear?_plus {n : Nat} (h : IsNumeral n v) (hrest : NoDigit rest) :
    readYear? ('+' :: (v ++ rest)) = some ((n : Int), rest) := by
  have hread : readDigits? (v ++ rest).length (v ++ rest) = some (n, rest) :=
    h.readDigits? (by simp) hrest
  rw [readYear?, Text.skipBlanks_cons_of_neg (by decide)]
  simp only [hread, Option.map_some]

theorem readYear?_minus {n : Nat} (h : IsNumeral n v) (hrest : NoDigit rest) :
    readYear? ('-' :: (v ++ rest)) = some (-(n : Int), rest) := by
  have hread : readDigits? (v ++ rest).length (v ++ rest) = some (n, rest) :=
    h.readDigits? (by simp) hrest
  rw [readYear?, Text.skipBlanks_cons_of_neg (by decide)]
  simp only [hread, Option.map_some]

theorem Item.Spells.read? (h : item.Spells d v) (hrest : ∀ c ∈ rest.head?, item.StopsAt c)
    (fields : Fields) : item.read? fields (v ++ rest) = some (item.fill d fields, rest) := by
  cases h with
  | year h hlength hyear =>
      rw [Item.read?, readYear?_append h hlength hrest, Option.map_some, fill,
        Int.natAbs_of_nonneg hyear]
  | plus h hyear =>
      rw [List.cons_append, Item.read?, readYear?_plus h hrest, Option.map_some, fill,
        Int.natAbs_of_nonneg hyear]
  | minus h hyear =>
      rw [List.cons_append, Item.read?, readYear?_minus h hrest, Option.map_some, fill,
        Int.ofNat_natAbs_of_nonpos hyear, Int.neg_neg]
  | month h hlength =>
      rw [Item.read?, readPart?_append h hlength hrest d.month_mem]
      rfl
  | day h hlength =>
      have hday := d.day_mem.2.trans (DatePattern.monthLength_le d.year d.month)
      rw [Item.read?, readPart?_append h hlength hrest ⟨d.day_mem.1, hday⟩]
      rfl
  | shortName h =>
      rw [Item.read?, readShortName?_append h]
      rfl
  | fullName h =>
      rw [Item.read?, readFullName?_append h]
      rfl
  | blanks hne h =>
      have hskip : Text.skipBlanks rest = rest := by
        cases rest with
        | nil => rfl
        | cons c rest => exact Text.skipBlanks_cons_of_neg (hrest c rfl) rest
      rw [Item.read?, Text.skipBlanks_append h, hskip]
      rfl
  | mark c => exact if_pos rfl

/-- A format reads what it writes in front of another text, if each of its items begins where the
one before stops, and so does that text. -/
theorem Format.Spells.read?_append {format : Format} {text : List Char}
    (h : format.Spells d text) (hchain : format.IsChain Item.Precedes)
    (hrest : ∀ item ∈ format.getLast?, ∀ c ∈ rest.head?, item.StopsAt c) (fields : Fields) :
    format.read? fields (text ++ rest) =
      if rest = [] then some (format.foldl (Item.fill d) fields) else none := by
  induction h generalizing fields with
  | nil => rfl
  | @cons item items v w hv hw ih =>
      have hstop : ∀ c ∈ (w ++ rest).head?, item.StopsAt c := by
        cases hw with
        | nil => exact hrest item rfl
        | @cons next items v w hnext hw =>
            obtain ⟨c, v, rfl, hc⟩ := hnext.exists_cons
            rintro c' ⟨⟩
            exact (List.isChain_cons_cons.mp hchain).1 c hc
      have hitems : ∀ item ∈ items.getLast?, ∀ c ∈ rest.head?, item.StopsAt c := by
        cases hw with
        | nil => exact nofun
        | cons => rwa [List.getLast?_cons_cons] at hrest
      rw [Format.read?, List.append_assoc, hv.read? hstop fields]
      exact ih hchain.of_cons hitems _

theorem precedes_mark {c : Char} (hc : c.isDigit = false) (hitem : item ≠ .blanks) :
    item.Precedes (.mark c) := by
  rintro c' rfl
  cases item with
  | year | month | day => exact hc
  | shortName | fullName | mark => trivial
  | blanks => exact absurd rfl hitem

theorem precedes_blanks (hitem : item ≠ .blanks) : item.Precedes .blanks := by
  intro c hc
  cases item with
  | year | month | day => exact Text.isDigit_of_isBlank hc
  | shortName | fullName | mark => trivial
  | blanks => exact absurd rfl hitem

theorem mark_precedes (c : Char) : (Item.mark c).Precedes item := fun _ _ => trivial

theorem blanks_precedes (hblanks : item ≠ .blanks) (hmark : ∀ c, item ≠ .mark c) :
    Item.blanks.Precedes item := by
  intro c hc
  cases item with
  | year =>
      rcases hc with hc | rfl | rfl
      · exact Text.isBlank_of_isDigit hc
      · exact (by decide : Text.isBlank '+' = false)
      · exact (by decide : Text.isBlank '-' = false)
  | month | day => exact Text.isBlank_of_isDigit hc
  | shortName | fullName => exact Text.isBlank_of_isAlpha hc
  | blanks => exact absurd rfl hblanks
  | mark c => exact absurd rfl (hmark c)

theorem isChain_of_mem_formats : ∀ format ∈ formats, format.IsChain Item.Precedes := by
  simp [formats, hyphenated, precedes_mark, precedes_blanks, mark_precedes, blanks_precedes]

theorem foldl_fill_of_mem_formats (d : Date) : ∀ format ∈ formats,
    format.foldl (Item.fill d) ⟨0, 0, 0⟩ = ⟨d.year, d.month, d.day⟩ := by
  simp [formats, hyphenated, Item.fill]

theorem Format.Spells.date? {format : Format} {text : List Char} (h : format.Spells d text)
    (hformat : format ∈ formats) : format.date? text = some d := by
  have hread : format.read? ⟨0, 0, 0⟩ (text ++ []) = some (format.foldl (Item.fill d) ⟨0, 0, 0⟩) :=
    h.read?_append (isChain_of_mem_formats format hformat) (by rintro item - c ⟨⟩) _
  rw [List.append_nil, foldl_fill_of_mem_formats d format hformat] at hread
  rw [Format.date?, hread]
  exact Date.ofParts?_eq_some_iff.mpr ⟨rfl, rfl, rfl⟩

variable {format : Format} {text : List Char}

def Item.written (d : Date) : Item → List Char
  | .year => (Date.yearText d.year).toList
  | .month => (Text.padded 2 d.month).toList
  | .day => (Text.padded 2 d.day).toList
  | .shortName => (nameOf d.month).take 3
  | .fullName => nameOf d.month
  | .blanks => [' ']
  | .mark c => [c]

def Format.written (d : Date) (format : Format) : List Char := format.flatMap (Item.written d)

theorem isNumeral_padded (width n : Nat) : IsNumeral n (Text.padded width n).toList := by
  rw [Text.padded, String.toList_ofList]
  exact ⟨List.append_ne_nil_of_right_ne_nil _ Nat.toDigits_ne_nil,
    fun c => Text.isDigit_of_mem_leftpad, Text.digitsValue_leftpad width n⟩

theorem length_padded {width n : Nat} (h : (Nat.toDigits 10 n).length ≤ width) :
    (Text.padded width n).toList.length = width := by
  rw [Text.padded, String.toList_ofList, List.length_leftpad]
  exact Nat.max_eq_left h

theorem length_padded_year {n : Nat} (h : n ≤ 9999) : (Text.padded 4 n).toList.length = 4 :=
  length_padded ((Nat.length_toDigits_le_iff (by decide) (by decide)).mpr (by omega))

theorem length_padded_part {n : Nat} (h : n ≤ 99) : (Text.padded 2 n).toList.length = 2 :=
  length_padded ((Nat.length_toDigits_le_iff (by decide) (by decide)).mpr (by omega))

theorem map_toLower_nameOf (d : Date) : (nameOf d.month).map Char.toLower = nameOf d.month := by
  have hlower : ∀ name ∈ monthNames, name.map Char.toLower = name := by decide +kernel
  exact hlower _ (nameOf_mem d.month_mem)

theorem Item.spells_year (d : Date) : Item.Spells d .year (Item.year.written d) := by
  have hpadded := isNumeral_padded 4 d.year.natAbs
  rw [written, Date.yearText]
  split_ifs with hneg hlong
  · rw [String.toList_append]
    exact .minus hpadded hneg.le
  · rw [String.toList_append]
    exact .plus hpadded (by omega)
  · exact .year hpadded (length_padded_year (by omega)).le (by omega)

theorem Item.spells_written (d : Date) (item : Item) : item.Spells d (item.written d) := by
  have hmonth := d.month_mem
  have hday := d.day_mem.2.trans (DatePattern.monthLength_le d.year d.month)
  cases item with
  | year => exact spells_year d
  | month => exact .month (isNumeral_padded 2 _) (length_padded_part (by omega)).le
  | day => exact .day (isNumeral_padded 2 _) (length_padded_part (by omega)).le
  | shortName =>
      refine .shortName ?_
      rw [written, List.map_take, map_toLower_nameOf]
  | fullName => exact .fullName (map_toLower_nameOf d)
  | blanks =>
      refine .blanks (List.cons_ne_nil _ _) fun c hc => ?_
      rw [List.mem_singleton.mp hc]
      decide
  | mark c => exact .mark c

theorem Format.spells_written (d : Date) (format : Format) :
    format.Spells d (format.written d) := by
  induction format with
  | nil => exact .nil
  | cons item items ih => exact .cons (item.spells_written d) ih

theorem written_hyphenated (d : Date) : hyphenated.written d = d.text.toList := by
  simp [Format.written, hyphenated, Item.written, Date.text]

theorem spells_text (d : Date) : hyphenated.Spells d d.text.toList :=
  written_hyphenated d ▸ Format.spells_written d hyphenated

theorem Format.Spells.exists_cons {items : Format} (h : Format.Spells d (item :: items) text) :
    ∃ c more, text = c :: more ∧ item.Opens c := by
  cases h with
  | cons hv hw =>
      obtain ⟨c, v, rfl, hc⟩ := hv.exists_cons
      exact ⟨c, _, rfl, hc⟩

theorem Item.Spells.exists_digit (h : item.Spells d v) (hitem : item = .day ∨ item = .year) :
    ∃ init c, v = init ++ [c] ∧ c.isDigit := by
  have hlast : ∀ {n : Nat} {v : List Char}, IsNumeral n v →
      ∃ init c, v = init ++ [c] ∧ c.isDigit := by
    intro n v hn
    refine ⟨v.dropLast, v.getLast hn.ne_nil, (List.dropLast_append_getLast hn.ne_nil).symm, ?_⟩
    exact hn.isDigit _ (List.getLast_mem hn.ne_nil)
  rcases hitem with rfl | rfl
  · cases h with
    | day h => exact hlast h
  · cases h with
    | year h => exact hlast h
    | plus h =>
        obtain ⟨init, c, rfl, hc⟩ := hlast h
        exact ⟨'+' :: init, c, rfl, hc⟩
    | minus h =>
        obtain ⟨init, c, rfl, hc⟩ := hlast h
        exact ⟨'-' :: init, c, rfl, hc⟩

theorem Format.Spells.exists_digit (h : format.Spells d text) (hlast : item ∈ format.getLast?)
    (hitem : item = .day ∨ item = .year) : ∃ init c, text = init ++ [c] ∧ c.isDigit := by
  induction h with
  | nil => cases hlast
  | @cons first items v w hv hw ih =>
      cases hw with
      | nil =>
          obtain rfl := Option.some.inj hlast
          rw [List.append_nil]
          exact hv.exists_digit hitem
      | cons hnext hw =>
          obtain ⟨init, c, hw', hc⟩ := ih (by rwa [List.getLast?_cons_cons] at hlast)
          exact ⟨v ++ init, c, by rw [hw', List.append_assoc], hc⟩

theorem ends_of_mem_formats : ∀ format ∈ formats, ∃ first items last, format = first :: items ∧
    Item.blanks.Precedes first ∧ last ∈ format.getLast? ∧ (last = .day ∨ last = .year) := by
  simp [formats, hyphenated, blanks_precedes]

theorem Format.Spells.trim_append (h : format.Spells d text) (hformat : format ∈ formats)
    {before : List Char} (hbefore : ∀ c ∈ before, Text.isBlank c) (after : List Char) :
    Text.trim (before ++ text ++ after) = text ++ Text.trimEnd after := by
  obtain ⟨first, items, last, rfl, hfirst, hlast, hnumber⟩ := ends_of_mem_formats format hformat
  obtain ⟨init, e, hinit, he⟩ := h.exists_digit hlast hnumber
  obtain ⟨c, more, htext, hc⟩ := h.exists_cons
  have hskip : Text.skipBlanks (before ++ text ++ after) = text ++ after := by
    rw [List.append_assoc, Text.skipBlanks_append hbefore, htext, List.cons_append,
      Text.skipBlanks_cons_of_neg (hfirst c hc)]
  rw [Text.trim_eq, hskip, hinit, Text.trimEnd_append (Text.isBlank_of_isDigit he)]

theorem Format.Spells.trim_eq (h : format.Spells d text) (hformat : format ∈ formats)
    {before after : List Char} (hblanks : ∀ c ∈ before ++ after, Text.isBlank c) :
    Text.trim (before ++ text ++ after) = text := by
  rw [h.trim_append hformat fun c hc => hblanks c (List.mem_append_left _ hc),
    Text.trimEnd_eq_nil fun c hc => hblanks c (List.mem_append_right _ hc), List.append_nil]

theorem Format.Spells.writtenDate? (h : format.Spells d text) (hformat : format ∈ formats) :
    Written.date? text = some d :=
  (findSome?_eq_some_iff (List.Perm.refl formats)).mpr ⟨format, hformat, h.date? hformat⟩

/-- A date that is written out in one of the formats is the start date, whatever blanks stand around
it and whichever day is today; and no text can be read as two dates, in whichever order the formats
are tried. -/
theorem ofText_spelled (d : Date) :
    (∀ today, ∀ format ∈ formats, ∀ text before after, Format.Spells d format text →
      (∀ c ∈ before ++ after, Text.isBlank c) →
        StartDate.ofText today (before ++ text ++ after) = .ok d) ∧
    (∀ format : Format, format.Spells d (format.written d)) ∧
    (∀ text, ∀ format ∈ formats, ∀ other ∈ formats, ∀ e,
      format.date? text = some d → other.date? text = some e → d = e) ∧
    ∀ text (order : List Format), order.Perm formats →
      order.findSome? (·.date? text) = Written.date? text := by
  refine ⟨?_, Format.spells_written d, ?_, fun text order => findSome?_of_perm⟩
  · intro today format hformat text before after h hblanks
    simp only [StartDate.ofText, h.trim_eq hformat hblanks, h.writtenDate? hformat]
  · intro text format hformat other hother e
    exact date?_unique hformat hother

theorem ofText_spelled_beforeChrist :
    StartDate.ofText ⟨2000, 2, 2, by decide, by decide, by decide⟩
      ([' ', ' '] ++ "maRCH \t15 -00043".toList ++ ['\n']) =
        .ok ⟨-43, 3, 15, by decide, by decide, by decide⟩ := by
  have hday : IsNumeral 15 "15".toList := isNumeral_padded 2 15
  have hyear : IsNumeral 43 "00043".toList := isNumeral_padded 5 43
  have hblanks : ∀ c ∈ [' ', '\t'], Text.isBlank c := List.all_eq_true.mp (by decide)
  have hblank : ∀ c ∈ [' '], Text.isBlank c := List.all_eq_true.mp (by decide)
  have hspells : Format.Spells ⟨-43, 3, 15, by decide, by decide, by decide⟩
      [.fullName, .blanks, .day, .blanks, .year]
      ("maRCH".toList ++ ([' ', '\t'] ++ ("15".toList ++ ([' '] ++
        ('-' :: "00043".toList ++ []))))) :=
    .cons (.fullName (by decide)) <| .cons (.blanks (by decide) hblanks) <|
      .cons (.day hday (by decide)) <| .cons (.blanks (by decide) hblank) <|
        .cons (.minus hyear (by decide)) .nil
  exact (ofText_spelled _).1 _ _ (by decide) _ [' ', ' '] ['\n'] hspells
    (List.all_eq_true.mp (by decide))

end Forecast.Written
