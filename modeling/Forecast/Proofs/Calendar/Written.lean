import Forecast.Proofs.Text
import Forecast.StartDate

namespace Forecast.Written

def NoDigit (rest : List Char) : Prop := ∀ c ∈ rest.head?, c.isDigit = false

theorem NoDigit.takeWhile {rest : List Char} (h : NoDigit rest) :
    rest.takeWhile Char.isDigit = [] := by
  cases rest with
  | nil => rfl
  | cons c rest =>
      have hc : c.isDigit = false := h c rfl
      exact List.takeWhile_cons_of_neg (by simp [hc])

theorem NoDigit.take {rest : List Char} (h : NoDigit rest) (n : Nat) : NoDigit (rest.take n) := by
  intro c hc
  cases n with
  | zero => cases hc
  | succ n => exact h c (by rwa [List.head?_take, if_neg n.succ_ne_zero] at hc)

theorem readDigits?_append {run rest : List Char} (hrun : ∀ c ∈ run, c.isDigit) (hne : run ≠ [])
    (hrest : NoDigit rest) {limit : Nat} (hlimit : 0 < limit) :
    readDigits? limit (run ++ rest) =
      some (Text.digitsValue (run.take limit), run.drop limit ++ rest) := by
  have hdigits : ((run ++ rest).take limit).takeWhile Char.isDigit = run.take limit := by
    rw [List.take_append, List.takeWhile_append_of_pos fun c hc => hrun c (List.mem_of_mem_take hc),
      (hrest.take _).takeWhile, List.append_nil]
  have hne' : run.take limit ≠ [] := by
    rw [ne_eq, List.take_eq_nil_iff]
    exact not_or.mpr ⟨hlimit.ne', hne⟩
  have hdrop : (run ++ rest).drop (run.take limit).length = run.drop limit ++ rest := by
    rw [List.length_take]
    rcases Nat.le_total limit run.length with hle | hle
    · rw [Nat.min_eq_left hle, List.drop_append_of_le_length hle]
    · rw [Nat.min_eq_right hle, List.drop_left, List.drop_eq_nil_of_le hle, List.nil_append]
  simp only [readDigits?, hdigits, hne', if_false, hdrop]

variable {rest : List Char}

theorem skipBlanks_digits {run : List Char} (hrun : ∀ c ∈ run, c.isDigit) (hne : run ≠ [])
    (rest : List Char) : Text.skipBlanks (run ++ rest) = run ++ rest := by
  obtain ⟨c, w, rfl⟩ := List.exists_cons_of_ne_nil hne
  exact Text.skipBlanks_cons_of_neg (Text.isBlank_of_isDigit (hrun c List.mem_cons_self)) _

theorem readYear?_digits {text run : List Char} (htext : Text.skipBlanks text = run ++ rest)
    (hrun : ∀ c ∈ run, c.isDigit) (hne : run ≠ []) (hrest : NoDigit rest) :
    readYear? text = some ((Text.digitsValue (run.take 4) : Int), run.drop 4 ++ rest) := by
  have hread : readDigits? 4 (run ++ rest) = some (_, _) :=
    readDigits?_append hrun hne hrest (by decide)
  obtain ⟨c, w, rfl⟩ := List.exists_cons_of_ne_nil hne
  have hc := hrun c List.mem_cons_self
  rw [List.cons_append] at htext hread
  rw [readYear?, htext]
  split
  · rename_i heq
    obtain rfl := (List.cons.inj heq).1
    cases hc
  · rename_i heq
    obtain rfl := (List.cons.inj heq).1
    cases hc
  · rw [hread, Option.map_some]

theorem monthNames_letters : ∀ name ∈ monthNames, 3 ≤ name.length ∧ ∀ c ∈ name, c.isAlpha := by
  have hall : ∀ name ∈ monthNames, 3 ≤ name.length ∧ name.all Char.isAlpha := by decide +kernel
  exact fun name hname => ⟨(hall name hname).1, List.all_eq_true.mp (hall name hname).2⟩

theorem readDigits?_of_not_isDigit {c : Char} (hc : c.isDigit = false) (limit : Nat)
    (rest : List Char) : readDigits? limit (c :: rest) = none := by
  have hnodigit : NoDigit (c :: rest) := by
    rintro c' ⟨⟩
    exact hc
  have hdigits := (hnodigit.take limit).takeWhile
  rw [readDigits?, hdigits]
  exact if_pos rfl

theorem readYear?_eq_none {c : Char} (hblank : Text.isBlank c = false) (hdigit : c.isDigit = false)
    (hplus : c ≠ '+') (hminus : c ≠ '-') (rest : List Char) : readYear? (c :: rest) = none := by
  rw [readYear?, Text.skipBlanks_cons_of_neg hblank]
  split
  · rename_i heq
    exact absurd (List.cons.inj heq).1 hminus
  · rename_i heq
    exact absurd (List.cons.inj heq).1 hplus
  · rw [readDigits?_of_not_isDigit hdigit, Option.map_none]

theorem readYear?_of_isAlpha {c : Char} (hc : c.isAlpha) (rest : List Char) :
    readYear? (c :: rest) = none := by
  refine readYear?_eq_none (Text.isBlank_of_isAlpha hc) (Text.isDigit_of_isAlpha hc) ?_ ?_ rest <;>
    · rintro rfl
      cases hc

theorem readPart?_of_isAlpha {c : Char} (hc : c.isAlpha) (max : Nat) (rest : List Char) :
    readPart? max (c :: rest) = none := by
  rw [readPart?, Text.skipBlanks_cons_of_neg (Text.isBlank_of_isAlpha hc),
    readDigits?_of_not_isDigit (Text.isDigit_of_isAlpha hc)]
  rfl

theorem exists_of_readShortName? {text rest : List Char} {m : Nat}
    (h : readShortName? text = some (m, rest)) : ∃ c more, text = c :: more ∧ c.isAlpha := by
  obtain ⟨m', hm, -⟩ := Option.map_eq_some_iff.mp h
  obtain ⟨i, hi, -⟩ := Option.map_eq_some_iff.mp hm
  obtain ⟨hlt, hname, -⟩ := List.findIdx?_eq_some_iff_getElem.mp hi
  have hname : monthNames[i].take 3 = (text.take 3).map Char.toLower := of_decide_eq_true hname
  obtain ⟨hlength, hletters⟩ := monthNames_letters _ (List.getElem_mem hlt)
  cases text with
  | nil =>
      have := congrArg List.length hname
      rw [List.length_take, List.take_nil, List.map_nil, List.length_nil] at this
      omega
  | cons c more =>
      refine ⟨c, more, rfl, Text.isAlpha_of_toLower (hletters _ (List.mem_of_mem_take (i := 3) ?_))⟩
      rw [hname]
      exact List.mem_map_of_mem (List.mem_cons_self ..)

theorem exists_of_readFullName? {text rest : List Char} {m : Nat}
    (h : readFullName? text = some (m, rest)) : ∃ c more, text = c :: more ∧ c.isAlpha := by
  obtain ⟨⟨m', rest'⟩, hshort, -⟩ := Option.bind_eq_some_iff.mp h
  exact exists_of_readShortName? hshort

theorem isAlpha_of_mem_nameEnding {m : Nat} {c : Char} (h : c ∈ nameEnding m) : c.isAlpha := by
  rw [nameEnding, List.getD_eq_getElem?_getD] at h
  cases hname : monthNames[m - 1]? with
  | none => simp [hname] at h
  | some name =>
      rw [hname, Option.getD_some] at h
      exact (monthNames_letters name (List.mem_of_getElem? hname)).2 c (List.mem_of_mem_drop h)

theorem readFullName?_of_readShortName? {text rest : List Char} {m : Nat}
    (h : readShortName? text = some (m, rest)) (hrest : ∀ c ∈ rest.head?, c.isAlpha = false) :
    readFullName? text = some (m, rest) := by
  rw [readFullName?, h]
  simp only [bind, Option.bind]
  split
  · rename_i hending
    cases hname : nameEnding m with
    | nil => rfl
    | cons c ending =>
        rw [hname] at hending
        cases rest with
        | nil => cases hending
        | cons c' rest =>
            have hc : c'.toLower = c := (List.cons.inj hending).1
            have halpha : c'.isAlpha :=
              Text.isAlpha_of_toLower (hc ▸ isAlpha_of_mem_nameEnding (hname ▸ List.mem_cons_self))
            simp [hrest c' rfl] at halpha
  · rfl

/-- The five ways in which a date is written out; a short name counts as a full one. -/
inductive Style where
  | hyphens
  | slashes
  | monthFirst
  | comma
  | dayFirst
  deriving DecidableEq

namespace Style

def format : Style → Format
  | hyphens => hyphenated
  | slashes => [.year, .mark '/', .month, .mark '/', .day]
  | monthFirst => [.fullName, .blanks, .day, .blanks, .year]
  | comma => [.fullName, .blanks, .day, .mark ',', .blanks, .year]
  | dayFirst => [.day, .blanks, .fullName, .blanks, .year]

/-- The only style in which a text can be written, found from its front. -/
def ofText (text : List Char) : Style :=
  match readYear? text with
  | some (_, '-' :: _) => hyphens
  | some (_, '/' :: _) => slashes
  | some _ => dayFirst
  | none =>
    match (readFullName? text).bind fun (_, rest) => readPart? 31 (Text.skipBlanks rest) with
    | some (_, ',' :: _) => comma
    | _ => monthFirst

end Style

section Reads

variable {fields fields' : Fields} {text rest : List Char} {items : Format}

theorem read?_cons_iff {α : Type} {item : Item} {read : Option (α × List Char)} {set : α → Fields}
    (hread : item.read? fields text = read.map fun (a, rest) => (set a, rest)) :
    Format.read? fields text (item :: items) = some fields' ↔
      ∃ rest a, read = some (a, rest) ∧ Format.read? (set a) rest items = some fields' := by
  rw [Format.read?, hread]
  constructor
  · intro h
    obtain ⟨⟨fields, rest⟩, hfields, h⟩ := Option.bind_eq_some_iff.mp h
    obtain ⟨⟨a, rest⟩, hread, ⟨⟩⟩ := Option.map_eq_some_iff.mp hfields
    exact ⟨rest, a, hread, h⟩
  · rintro ⟨rest, a, rfl, h⟩
    exact h

theorem read?_year_iff : Format.read? fields text (.year :: items) = some fields' ↔
    ∃ rest y, readYear? text = some (y, rest) ∧
      Format.read? ⟨y, fields.month, fields.day⟩ rest items = some fields' :=
  read?_cons_iff rfl

theorem read?_day_iff : Format.read? fields text (.day :: items) = some fields' ↔
    ∃ rest n, readPart? 31 text = some (n, rest) ∧
      Format.read? ⟨fields.year, fields.month, n⟩ rest items = some fields' :=
  read?_cons_iff rfl

theorem read?_shortName_iff : Format.read? fields text (.shortName :: items) = some fields' ↔
    ∃ rest m, readShortName? text = some (m, rest) ∧
      Format.read? ⟨fields.year, m, fields.day⟩ rest items = some fields' :=
  read?_cons_iff rfl

theorem read?_fullName_iff : Format.read? fields text (.fullName :: items) = some fields' ↔
    ∃ rest m, readFullName? text = some (m, rest) ∧
      Format.read? ⟨fields.year, m, fields.day⟩ rest items = some fields' :=
  read?_cons_iff rfl

theorem read?_blanks : Format.read? fields text (.blanks :: items) =
    Format.read? fields (Text.skipBlanks text) items := rfl

theorem read?_mark_iff {c : Char} : Format.read? fields text (.mark c :: items) = some fields' ↔
    ∃ rest, text = c :: rest ∧ Format.read? fields rest items = some fields' := by
  cases text with
  | nil => simp [Format.read?, Item.read?]
  | cons d rest =>
      by_cases hd : c = d
      · subst hd
        simp [Format.read?, Item.read?]
      · simp [Format.read?, Item.read?, hd, Ne.symm hd]

end Reads

section Styles

variable {fields fields' : Fields} {text rest : List Char}

theorem not_isAlpha_of_read {α : Type} {read : List Char → Option α} {a : α}
    (hread : ∀ c more, c.isAlpha → read (c :: more) = none)
    (h : read (Text.skipBlanks rest) = some a) : ∀ c ∈ rest.head?, c.isAlpha = false := by
  intro c hc
  obtain ⟨more, rfl⟩ := List.head?_eq_some_iff.mp hc
  cases halpha : c.isAlpha with
  | false => rfl
  | true =>
      rw [Text.skipBlanks_cons_of_neg (Text.isBlank_of_isAlpha halpha), hread c more halpha] at h
      cases h

theorem ofText_of_hyphens (h : Style.hyphens.format.read? fields text = some fields') :
    Style.ofText text = .hyphens := by
  obtain ⟨rest, y, hyear, h⟩ := read?_year_iff.mp h
  obtain ⟨rest', rfl, -⟩ := read?_mark_iff.mp h
  simp [Style.ofText, hyear]

theorem ofText_of_slashes (h : Style.slashes.format.read? fields text = some fields') :
    Style.ofText text = .slashes := by
  obtain ⟨rest, y, hyear, h⟩ := read?_year_iff.mp h
  obtain ⟨rest', rfl, -⟩ := read?_mark_iff.mp h
  simp [Style.ofText, hyear]

theorem ofText_of_monthFirst (h : Style.monthFirst.format.read? fields text = some fields') :
    Style.ofText text = .monthFirst := by
  obtain ⟨rest, m, hname, h⟩ := read?_fullName_iff.mp h
  rw [read?_blanks] at h
  obtain ⟨rest', n, hday, h⟩ := read?_day_iff.mp h
  rw [read?_blanks] at h
  obtain ⟨rest'', y, hyear, -⟩ := read?_year_iff.mp h
  obtain ⟨c, more, rfl, hc⟩ := exists_of_readFullName? hname
  have hcomma : ∀ more, rest' ≠ ',' :: more := by
    rintro more rfl
    rw [Text.skipBlanks_cons_of_neg (by decide), readYear?_eq_none (by decide) (by decide)
      (by decide) (by decide)] at hyear
    cases hyear
  rw [Style.ofText, readYear?_of_isAlpha hc, hname]
  simp only [Option.bind_some, hday]
  split
  · rename_i heq
    exact absurd (congrArg Prod.snd (Option.some.inj heq)) (hcomma _)
  · rfl

theorem ofText_of_comma (h : Style.comma.format.read? fields text = some fields') :
    Style.ofText text = .comma := by
  obtain ⟨rest, m, hname, h⟩ := read?_fullName_iff.mp h
  rw [read?_blanks] at h
  obtain ⟨rest', n, hday, h⟩ := read?_day_iff.mp h
  obtain ⟨rest'', rfl, -⟩ := read?_mark_iff.mp h
  obtain ⟨c, more, rfl, hc⟩ := exists_of_readFullName? hname
  rw [Style.ofText, readYear?_of_isAlpha hc, hname]
  simp only [Option.bind_some, hday]

theorem exists_run_of_readDigits? {limit : Nat} {n : Nat}
    (h : readDigits? limit text = some (n, rest)) : ∃ run after, text = run ++ after ∧ run ≠ [] ∧
      (∀ c ∈ run, c.isDigit) ∧ NoDigit after := by
  refine ⟨text.takeWhile Char.isDigit, text.dropWhile Char.isDigit,
    List.takeWhile_append_dropWhile.symm, ?_, fun c => List.mem_takeWhile_imp, ?_⟩
  · cases text with
    | nil => simp [readDigits?] at h
    | cons c text =>
        have hc : c.isDigit := by
          by_contra hc
          rw [readDigits?_of_not_isDigit (by simpa using hc)] at h
          cases h
        simp [List.takeWhile_cons_of_pos hc]
  · intro c hc
    have hnot := List.head?_dropWhile_not Char.isDigit text
    rw [Option.mem_def.mp hc] at hnot
    exact hnot

theorem ofText_of_dayFirst (h : Style.dayFirst.format.read? fields text = some fields') :
    Style.ofText text = .dayFirst := by
  obtain ⟨rest, n, hday, h⟩ := read?_day_iff.mp h
  rw [read?_blanks] at h
  obtain ⟨rest', m, hname, -⟩ := read?_fullName_iff.mp h
  obtain ⟨c, more, hletter, hc⟩ := exists_of_readFullName? hname
  obtain ⟨⟨n', rest'⟩, hdigits, hn⟩ := Option.bind_eq_some_iff.mp hday
  obtain ⟨-, hn⟩ := Option.ite_none_right_eq_some.mp hn
  obtain rfl : rest' = rest := congrArg Prod.snd (Option.some.inj hn)
  obtain ⟨run, after, htext, hne, hrun, hafter⟩ := exists_run_of_readDigits? hdigits
  rw [htext, readDigits?_append hrun hne hafter (by decide)] at hdigits
  obtain rfl := congrArg Prod.snd (Option.some.inj hdigits)
  -- A third digit would stand where the name begins.
  have hshort : run.drop 2 = [] := by
    cases hdrop : run.drop 2 with
    | nil => rfl
    | cons e digits =>
        have he : e.isDigit := hrun e (List.mem_of_mem_drop (hdrop ▸ List.mem_cons_self))
        simp only [hdrop, List.cons_append] at hletter
        rw [Text.skipBlanks_cons_of_neg (Text.isBlank_of_isDigit he)] at hletter
        obtain rfl := (List.cons.inj hletter).1
        simp [Text.isDigit_of_isAlpha hc] at he
  have hlength : run.length ≤ 4 := (List.drop_eq_nil_iff.mp hshort).trans (by decide)
  rw [hshort, List.nil_append] at hletter
  have hmark : ∀ mark more, mark.isAlpha = false → Text.isBlank mark = false →
      after ≠ mark :: more := by
    rintro mark more halpha hblank rfl
    rw [Text.skipBlanks_cons_of_neg hblank] at hletter
    obtain rfl := (List.cons.inj hletter).1
    rw [halpha] at hc
    cases hc
  rw [Style.ofText, readYear?_digits htext hrun hne hafter, List.drop_eq_nil_of_le hlength,
    List.nil_append]
  split
  · rename_i heq
    exact absurd (congrArg Prod.snd (Option.some.inj heq)) (hmark '-' _ (by decide) (by decide))
  · rename_i heq
    exact absurd (congrArg Prod.snd (Option.some.inj heq)) (hmark '/' _ (by decide) (by decide))
  · rfl
  · rename_i heq
    cases heq

theorem ofText_of_read? {style : Style} (h : style.format.read? fields text = some fields') :
    Style.ofText text = style := by
  cases style with
  | hyphens => exact ofText_of_hyphens h
  | slashes => exact ofText_of_slashes h
  | monthFirst => exact ofText_of_monthFirst h
  | comma => exact ofText_of_comma h
  | dayFirst => exact ofText_of_dayFirst h

theorem not_isAlpha_of_read?_blanks {item : Item} {items : Format}
    (hitem : item = .day ∨ item = .year)
    (h : Format.read? fields text (.blanks :: item :: items) = some fields') :
    ∀ c ∈ text.head?, c.isAlpha = false := by
  rw [read?_blanks] at h
  rcases hitem with rfl | rfl
  · obtain ⟨rest, n, hday, -⟩ := read?_day_iff.mp h
    exact not_isAlpha_of_read (fun c more hc => readPart?_of_isAlpha hc 31 more) hday
  · obtain ⟨rest, y, hyear, -⟩ := read?_year_iff.mp h
    exact not_isAlpha_of_read (fun c more hc => readYear?_of_isAlpha hc more) hyear

theorem read?_fullName_of_shortName {item : Item} {items : Format}
    (hitem : item = .day ∨ item = .year)
    (h : Format.read? fields text (.shortName :: .blanks :: item :: items) = some fields') :
    Format.read? fields text (.fullName :: .blanks :: item :: items) = some fields' := by
  obtain ⟨rest, m, hname, h⟩ := read?_shortName_iff.mp h
  have hfull := readFullName?_of_readShortName? hname (not_isAlpha_of_read?_blanks hitem h)
  exact read?_fullName_iff.mpr ⟨rest, m, hfull, h⟩

/-- What any format reads, the style that the text is written in reads as well. -/
theorem read?_ofText {format : Format} (hformat : format ∈ formats)
    (h : format.read? fields text = some fields') :
    (Style.ofText text).format.read? fields text = some fields' := by
  suffices hstyle : ∃ style : Style, style.format.read? fields text = some fields' by
    obtain ⟨style, h⟩ := hstyle
    rw [ofText_of_read? h]
    exact h
  simp only [formats, List.mem_cons, List.not_mem_nil, or_false] at hformat
  rcases hformat with rfl | rfl | rfl | rfl | rfl | rfl | rfl | rfl
  · exact ⟨.hyphens, h⟩
  · exact ⟨.slashes, h⟩
  · exact ⟨.monthFirst, read?_fullName_of_shortName (.inl rfl) h⟩
  · exact ⟨.monthFirst, h⟩
  · exact ⟨.comma, read?_fullName_of_shortName (.inl rfl) h⟩
  · exact ⟨.comma, h⟩
  · obtain ⟨rest, n, hday, h⟩ := read?_day_iff.mp h
    exact ⟨.dayFirst, read?_day_iff.mpr ⟨rest, n, hday, read?_fullName_of_shortName (.inr rfl) h⟩⟩
  · exact ⟨.dayFirst, h⟩

end Styles

variable {format other : Format} {text : List Char} {d e : Date}

theorem date?_ofText (hformat : format ∈ formats) (h : format.date? text = some d) :
    (Style.ofText text).format.date? text = some d := by
  obtain ⟨fields, hread, hparts⟩ := Option.bind_eq_some_iff.mp h
  exact Option.bind_eq_some_iff.mpr ⟨fields, read?_ofText hformat hread, hparts⟩

/-- Two formats that accept a text read the same date in it. -/
theorem date?_unique (hformat : format ∈ formats) (hother : other ∈ formats)
    (h : format.date? text = some d) (h' : other.date? text = some e) : d = e :=
  Option.some.inj ((date?_ofText hformat h).symm.trans (date?_ofText hother h'))

theorem findSome?_eq_some_iff {order : List Format} (horder : order.Perm formats) :
    order.findSome? (·.date? text) = some d ↔ ∃ format ∈ formats, format.date? text = some d := by
  constructor
  · intro h
    obtain ⟨format, hformat, h⟩ := List.exists_of_findSome?_eq_some h
    exact ⟨format, horder.subset hformat, h⟩
  · rintro ⟨format, hformat, h⟩
    cases hfind : order.findSome? (·.date? text) with
    | none =>
        have hnone := List.findSome?_eq_none_iff.mp hfind format (horder.symm.subset hformat)
        rw [h] at hnone
        cases hnone
    | some e =>
        obtain ⟨other, hother, h'⟩ := List.exists_of_findSome?_eq_some hfind
        rw [date?_unique (horder.subset hother) hformat h' h]

theorem findSome?_of_perm {order : List Format} (horder : order.Perm formats) :
    order.findSome? (·.date? text) = Written.date? text :=
  Option.ext fun _ => (findSome?_eq_some_iff horder).trans
    (findSome?_eq_some_iff (List.Perm.refl formats)).symm

end Forecast.Written
