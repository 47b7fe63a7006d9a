import Forecast.Proofs.Days
import Forecast.Proofs.Phrase.Reader

namespace Forecast

namespace Phrase

open Reader

variable {source : List Char} {limit : Nat}

def Measure.Small : Measure → Prop
  | .seconds n => n ≤ 3600
  | .days n => n ≤ 7
  | .months n => n ≤ 12

instance : DecidablePred Measure.Small
  | .seconds _ | .days _ | .months _ => inferInstanceAs (Decidable (_ ≤ _))

def Day.Within (limit : Nat) : Day → Prop
  | .counted count measure => count.natAbs ≤ limit ∧ measure.Small
  | .absolute year _ _ => 0 ≤ year ∧ year ≤ limit
  | .weekday day _ => day < 7
  | .monthDay .. => True

theorem utf8Size_of_ascii {c : Char} (h : c.toNat < 0x80) : c.utf8Size = 1 :=
  Char.utf8Size_eq_one_iff.mpr (UInt32.le_iff_toNat_le.mpr (Nat.le_of_lt_succ h))

/-- A text is cut inside a character only if it has one of more than one byte. -/
theorem of_firstBytes_eq_aborted {n : Nat} {word : List Char} {why : Abort}
    (h : firstBytes n word = .aborted why) : why = .splitCharacter ∧ ¬ IsAscii word := by
  induction word generalizing n with
  | nil => cases h
  | cons c rest ih =>
      rw [firstBytes] at h
      split_ifs at h with hn hsize
      · cases h
        refine ⟨rfl, fun hascii => ?_⟩
        have := utf8Size_of_ascii (hascii c List.mem_cons_self)
        omega
      · obtain ⟨rfl, hnot⟩ := ih (Result.map_eq_aborted_iff.mp h)
        exact ⟨rfl, fun hascii => hnot fun c hc => hascii c (List.mem_cons_of_mem _ hc)⟩

theorem lowerLetter_of_ascii {c : Char} (h : c.toNat < 0x80) :
    Text.lowerLetter c = [c.toLower] := by
  have hbeyond : ∀ p ∈ Text.resizedByLower, 0x80 ≤ p.1.toNat := by decide +kernel
  have hnone : Text.resizedByLower.lookup c = none := by
    refine List.lookup_eq_none_iff.mpr fun p hp => ?_
    have := hbeyond p hp
    rw [bne_iff_ne]
    rintro rfl
    omega
  rw [Text.lowerLetter, hnone, Option.getD_none]

theorem toLower_lt_of_ascii {c : Char} (h : c.toNat < 0x80) : c.toLower.toNat < 0x80 := by
  delta Char.toLower
  split
  · rename_i hupper
    have hle : c.toNat ≤ 90 := UInt32.le_iff_toNat_le.mp hupper.2
    simp
    omega
  · exact h

theorem isAscii_lower {word : List Char} (h : IsAscii word) : IsAscii (Text.lower word) := by
  intro c hc
  obtain ⟨c', hc', hmem⟩ := List.mem_flatMap.mp hc
  rw [lowerLetter_of_ascii (h c' hc'), List.mem_singleton] at hmem
  rw [hmem]
  exact toLower_lt_of_ascii (h c' hc')

section Words

variable {word : List Char} (hword : IsAscii source → IsAscii word)
include hword

theorem explains_of_firstBytes {n : Nat} {why : Abort} (h : firstBytes n word = .aborted why) :
    Explains source why := by
  obtain ⟨rfl, hnot⟩ := of_firstBytes_eq_aborted h
  exact mt hword hnot

theorem yields_monthNamed? : Yields source (fun _ => True) (liftM (monthNamed? word)) :=
  yields_lift (fun _ _ => trivial) fun _ h =>
    explains_of_firstBytes hword (Result.map_eq_aborted_iff.mp h)

theorem yields_weekdayNamed? :
    Yields source (fun day => ∀ n ∈ day, n < 7) (liftM (weekdayNamed? word)) := by
  refine yields_lift (fun day hday n hn => ?_) fun _ h =>
    explains_of_firstBytes hword (Result.map_eq_aborted_iff.mp h)
  obtain ⟨letters, -, rfl⟩ := Result.map_eq_ok_iff.mp hday
  obtain ⟨hlt, -⟩ := List.findIdx?_eq_some_iff_getElem.mp hn
  exact hlt

omit hword in
theorem small_of_measureOfLetter? {c : Char} {m : Measure} (h : measureOfLetter? c = some m) :
    m.Small := by
  unfold measureOfLetter? at h
  split at h <;> cases h <;> decide

omit hword in
theorem small_of_measureOfLetters? {letters : List Char} {m : Measure}
    (h : measureOfLetters? letters = some m) : m.Small := by
  obtain ⟨⟨name, m'⟩, hmem, hm⟩ := List.exists_of_findSome?_eq_some h
  obtain ⟨-, ⟨⟩⟩ := Option.ite_none_right_eq_some.mp hm
  have hall := fun (h : ∀ p ∈ _, p.2.Small) => h _ hmem
  exact hall (by decide)

theorem yields_measureNamed? :
    Yields source (fun m => ∀ m' ∈ m, m'.Small) (liftM (measureNamed? word)) := by
  refine yields_lift (fun m hm m' hm' => ?_) fun _ h => ?_
  · rw [measureNamed?] at hm
    split_ifs at hm
    · obtain ⟨letters, -, rfl⟩ := Result.map_eq_ok_iff.mp hm
      obtain ⟨c, -, hc⟩ := Option.bind_eq_some_iff.mp hm'
      exact small_of_measureOfLetter? hc
    · obtain ⟨letters, -, rfl⟩ := Result.map_eq_ok_iff.mp hm
      exact small_of_measureOfLetters? hm'
  · rw [measureNamed?] at h
    split_ifs at h
    · exact explains_of_firstBytes hword (Result.map_eq_aborted_iff.mp h)
    · exact explains_of_firstBytes hword (Result.map_eq_aborted_iff.mp h)

end Words

def readDirected (negative : Bool) (direction : Option Direction) :
    Token → Reader (Option Day × Ahead)
  | .stop => throw .nothingAfterDirection
  | .word w => return (some (← readNamedDay direction (Text.lower w)), .nothing)
  | .number n => readNumberedDay negative direction n
  | t => throw (.notExpected t)

def readSigned (negative : Bool) (start : Token) : Reader (Option Day × Ahead) := do
  if start = .stop then throw .nothingAfterSign
  if let some days := shortcut? start then
    return (some (.counted days (.days 1)), .nothing)
  let direction := direction? start
  readDirected negative direction (← if direction.isSome then token else pure start)

theorem readDay_eq : readDay = (do
    let first ← token
    if first = .stop then throw .noDate
    let negative := first = .mark '-'
    readSigned negative (← if negative then token else pure first)) := by
  unfold readDay readSigned readDirected
  rfl

section Days

variable (h : Limited source limit)
include h

theorem yields_readNamedDay (direction : Option Direction) {word : List Char}
    (hword : IsAscii source → IsAscii word) :
    Yields source (Day.Within limit) (readNamedDay direction word) := by
  refine (yields_weekdayNamed? hword).bind fun day hday => ?_
  split
  · exact yields_pure (hday _ rfl)
  · refine (yields_monthNamed? hword).bind fun month _ => ?_
    split
    · refine (yields_token h).bind fun t _ => ?_
      split
      · refine (yields_takes ',').bind fun comma _ => ?_
        split_ifs
        · refine (yields_number h).bind fun year hyear => yields_pure ⟨?_, ?_⟩ <;> omega
        · exact yields_pure trivial
      · exact yields_pure trivial
    · exact yields_throw

theorem yields_readCounted (negative : Bool) {n : Nat} (hn : n ≤ limit) {measure : Measure}
    (hmeasure : measure.Small) :
    Yields source (fun (day, _) => day.Within limit) (readCounted negative n measure) := by
  have hforward : (Day.counted n measure).Within limit := ⟨by omega, hmeasure⟩
  have hbackward : (Day.counted (-n) measure).Within limit := ⟨by omega, hmeasure⟩
  rw [readCounted]
  split_ifs
  · exact yields_pure hbackward
  · refine (yields_token h).bind fun t _ => ?_
    split
    · split_ifs
      · exact yields_pure hbackward
      · exact yields_throw
    · exact yields_pure hforward
    · exact yields_pure hforward

theorem yields_readNumberWord (negative : Bool) (direction : Option Direction) {n : Nat}
    (hn : n ≤ limit) {word : List Char} (hword : IsAscii source → IsAscii word) :
    Yields source (fun (day, _) => ∀ d ∈ day, d.Within limit)
      (readNumberWord negative direction n word) := by
  refine (yields_monthNamed? hword).bind fun month _ => ?_
  split
  · refine (yields_token h).bind fun t ⟨rest, ht⟩ => ?_
    split
    · have hyear := ht.number_le _ rfl
      refine yields_pure ?_
      rintro d ⟨⟩
      exact ⟨by omega, by omega⟩
    · exact yields_pure (by rintro d ⟨⟩; trivial)
  · refine (yields_measureNamed? hword).bind fun measure hmeasure => ?_
    split
    · refine (yields_readCounted h negative hn (hmeasure _ rfl)).bind fun (day, ahead) hday => ?_
      exact yields_pure (by rintro d ⟨⟩; exact hday)
    · split_ifs
      · exact (yields_hourOfHalf _ n).bind fun hour _ => yields_pure nofun
      · exact yields_throw

theorem yields_readNumberedDay (negative : Bool) (direction : Option Direction) {n : Nat}
    (hn : n ≤ limit) : Yields source (fun (day, _) => ∀ d ∈ day, d.Within limit)
      (readNumberedDay negative direction n) := by
  have hyears := h.years
  refine (yields_token h).bind fun t ⟨rest, ht⟩ => ?_
  split
  · exact yields_pure (by rintro d ⟨⟩; exact ⟨by omega, by omega⟩)
  · exact yields_readNumberWord h negative direction hn fun hascii =>
      isAscii_lower fun c hc => hascii c (ht.word_subset _ rfl hc)
  · refine (yields_number h).bind fun month _ => (yields_markOf h '-').bind fun _ _ => ?_
    refine (yields_number h).bind fun day _ => yields_pure ?_
    rintro d ⟨⟩
    exact ⟨by omega, by omega⟩
  · refine (yields_number h).bind fun day _ => (yields_takes '/').bind fun slash _ => ?_
    split_ifs
    · refine (yields_number h).bind fun year hyear => yields_pure ?_
      rintro d ⟨⟩
      refine ⟨by omega, ?_⟩
      rw [fullYear]
      split_ifs <;> omega
    · exact yields_pure (by rintro d ⟨⟩; trivial)
  · exact yields_pure nofun
  · exact yields_pure nofun
  · exact yields_throw
  · exact yields_throw

omit h in
theorem shortcut?_within {t : Token} {days : Int} (hlimit : 1 ≤ limit)
    (hdays : shortcut? t = some days) : (Day.counted days (.days 1)).Within limit := by
  obtain ⟨⟨name, days'⟩, hmem, hd⟩ := List.exists_of_findSome?_eq_some hdays
  obtain ⟨-, ⟨⟩⟩ := Option.ite_none_right_eq_some.mp hd
  have hall := fun (h : ∀ p ∈ _, p.2.natAbs ≤ 1) => h _ hmem
  exact ⟨(hall (by decide)).trans hlimit, by decide⟩

theorem yields_readDirected (negative : Bool) (direction : Option Direction) {t : Token}
    {rest : List Char} (ht : t.Within source limit rest) :
    Yields source (fun (day, _) => ∀ d ∈ day, d.Within limit)
      (readDirected negative direction t) := by
  unfold readDirected
  split
  · exact yields_throw
  · refine (yields_readNamedDay h direction fun hascii => ?_).bind fun day hday => yields_pure ?_
    · exact isAscii_lower fun c hc => hascii c (ht.word_subset _ rfl hc)
    · rintro d ⟨⟩
      exact hday
  · exact yields_readNumberedDay h negative direction (ht.number_le _ rfl)
  · exact yields_throw

theorem yields_readSigned (negative : Bool) {start : Token} {rest : List Char}
    (hstart : start.Within source limit rest) :
    Yields source (fun (day, _) => ∀ d ∈ day, d.Within limit) (readSigned negative start) := by
  have hyears := h.years
  unfold readSigned
  dsimp only
  split
  · exact ensures_throw_bind
  · split
    · rename_i hdays
      refine yields_pure ?_
      rintro d ⟨⟩
      exact shortcut?_within (by omega) hdays
    · split
      · exact (yields_token h).bind fun t ⟨rest, ht⟩ => yields_readDirected h _ _ ht
      · exact yields_readDirected h _ _ hstart

theorem yields_readDay :
    Yields source (fun (day, _) => ∀ d ∈ day, d.Within limit) readDay := by
  rw [readDay_eq]
  refine (yields_token h).bind fun first ⟨rest, hfirst⟩ => ?_
  dsimp only
  split
  · exact ensures_throw_bind
  · split
    · exact (yields_token h).bind fun t ⟨rest, ht⟩ => yields_readSigned h _ ht
    · exact yields_readSigned h _ hfirst

theorem yields_read : Yields source (fun (day, clock) =>
    (∀ d ∈ day, d.Within limit) ∧ ∀ c ∈ clock, c.Within source limit) read := by
  refine (yields_readDay h).bind fun (day, ahead) hday => ?_
  exact (yields_readTime h ahead).bind fun clock hclock => yields_pure ⟨hday, hclock⟩

end Days

end Phrase

end Forecast
