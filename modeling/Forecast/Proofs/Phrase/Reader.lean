import Mathlib.Tactic.SplitIfs
import Forecast.Phrase.Reader
import Forecast.Proofs.Text

namespace Forecast

namespace Result

variable {ε α β : Type} {Q : α → Prop} {R : β → Prop} {A : Abort → Prop}

/-- An answer satisfies `Q`, and what breaks off does so only for a reason that satisfies `A`. -/
def Satisfies (Q : α → Prop) (A : Abort → Prop) : Result ε α → Prop
  | ok a => Q a
  | error _ => True
  | aborted why => A why

theorem Satisfies.bind {x : Result ε α} {f : α → Result ε β} (hx : x.Satisfies Q A)
    (hf : ∀ a, Q a → (f a).Satisfies R A) : (x >>= f).Satisfies R A := by
  cases x with
  | ok a => exact hf a hx
  | error e => exact trivial
  | aborted why => exact hx

theorem Satisfies.mono {Q' : α → Prop} {A' : Abort → Prop} {x : Result ε α}
    (hx : x.Satisfies Q A) (hQ : ∀ a, Q a → Q' a) (hA : ∀ why, A why → A' why) :
    x.Satisfies Q' A' := by
  cases x with
  | ok a => exact hQ a hx
  | error e => exact trivial
  | aborted why => exact hA why hx

theorem satisfies_elim {found : Option β} {missing : ε} {f : β → Result ε α}
    (hf : ∀ b ∈ found, (f b).Satisfies Q A) :
    (found.elim (.error missing) f).Satisfies Q A := by
  cases found with
  | none => exact trivial
  | some b => exact hf b rfl

end Result

namespace Phrase

namespace Reader

variable {α β : Type} {P P' : List Char → Prop} {Q : α → List Char → Prop}
  {R : β → List Char → Prop} {A : Abort → Prop}

theorem bind_of_ok {r : Reader α} {f : α → Reader β} {text rest : List Char} {a : α}
    (h : r text = .ok (a, rest)) : (r >>= f) text = f a rest := by
  change (r text).bind (fun result => f result.1 result.2) = f a rest
  rw [h]
  rfl

theorem bind_of_error {r : Reader α} {f : α → Reader β} {text : List Char} {e : Error}
    (h : r text = .error e) : (r >>= f) text = .error e := by
  change (r text).bind (fun result => f result.1 result.2) = .error e
  rw [h]
  rfl

theorem bind_of_aborted {r : Reader α} {f : α → Reader β} {text : List Char} {why : Abort}
    (h : r text = .aborted why) : (r >>= f) text = .aborted why := by
  change (r text).bind (fun result => f result.1 result.2) = .aborted why
  rw [h]
  rfl

/-- What the reader makes of a text that satisfies `P` satisfies `Q` together with the text that is
left, and it breaks off only for a reason that satisfies `A`. -/
def Ensures (P : List Char → Prop) (r : Reader α) (Q : α → List Char → Prop)
    (A : Abort → Prop) : Prop :=
  ∀ text, P text → (r text).Satisfies (fun result => Q result.1 result.2) A

theorem ensures_pure {a : α} (h : ∀ text, P text → Q a text) : Ensures P (pure a) Q A := h

theorem ensures_throw {e : Error} : Ensures P (throw e) Q A := fun _ _ => trivial

theorem ensures_throw_bind {e : Error} {f : α → Reader β} : Ensures P (throw e >>= f) R A :=
  fun _ _ => trivial

theorem ensures_get : Ensures P get (fun text rest => text = rest ∧ P rest) A :=
  fun _ htext => ⟨rfl, htext⟩

theorem ensures_set {Q : PUnit → List Char → Prop} {rest : List Char}
    (h : ∀ text, P text → Q ⟨⟩ rest) : Ensures P (set rest) Q A := h

theorem Ensures.bind {r : Reader α} {f : α → Reader β} (hr : Ensures P r Q A)
    (hf : ∀ a, Ensures (Q a) (f a) R A) : Ensures P (r >>= f) R A :=
  fun text htext => (hr text htext).bind fun result hresult => hf result.1 result.2 hresult

theorem ensures_of_and {p : Prop} {r : Reader α} (h : p → Ensures P r Q A) :
    Ensures (fun text => p ∧ P text) r Q A := fun text htext => h htext.1 text htext.2

theorem Ensures.weaken {r : Reader α} (h : Ensures P r Q A) (hP : ∀ text, P' text → P text) :
    Ensures P' r Q A := fun text htext => h text (hP text htext)

theorem ensures_lift {x : Result Error α} (hok : ∀ a, x = .ok a → ∀ text, P text → Q a text)
    (haborted : ∀ why, x = .aborted why → ∀ text, P text → A why) :
    Ensures P (liftM x) Q A := by
  intro text htext
  cases x with
  | error e => exact trivial
  | aborted why => exact haborted why rfl text htext
  | ok a => exact hok a rfl text htext

end Reader

open Reader

variable {α : Type} {source : List Char} {limit : Nat}

/-- No number of the text is above the limit, and neither are the years that two digits stand
for. -/
structure Limited (source : List Char) (limit : Nat) : Prop where
  years : 2040 ≤ limit
  number_le : ∀ text, text <:+ source → Text.digitsValue (text.takeWhile Char.isDigit) ≤ limit

def IsAscii (text : List Char) : Prop := ∀ c ∈ text, c.toNat < 0x80

structure Token.Within (source : List Char) (limit : Nat) (t : Token) (rest : List Char) :
    Prop where
  rest_suffix : rest <:+ source
  number_le : ∀ n, t = .number n → n ≤ limit
  mark_suffix : ∀ c, t = .mark c → c :: rest <:+ source
  word_subset : ∀ w, t = .word w → w ⊆ source

/-- The offset of a clock time is bounded, and if there is one there is a sign in the text. -/
structure Clock.Within (source : List Char) (limit : Nat) (c : Clock) : Prop where
  natAbs_offset_le : c.offset.natAbs ≤ 3660 * limit
  sign : c.offset ≠ 0 → '+' ∈ source ∨ '-' ∈ source

/-- What in the text makes its reading break off; counting days never does. -/
def Explains (source : List Char) : Abort → Prop
  | .splitCharacter => ¬ IsAscii source
  | .malformedFraction =>
    ∃ rest, '.' :: rest <:+ source ∧ (Token.runOf Text.isNumeric rest).1 ≠ [] ∧
      isFraction (Token.runOf Text.isNumeric rest).1 = false
  | .offCalendar | .capacity => False

theorem suffix_of_cons {c : Char} {rest : List Char} (h : c :: rest <:+ source) :
    rest <:+ source := (List.suffix_cons c rest).trans h

theorem runOf_suffix (p : Char → Bool) (text : List Char) :
    (Token.runOf p text).2 <:+ text := by
  cases text with
  | nil => exact List.suffix_rfl
  | cons c rest => exact (List.drop_suffix _ rest).trans (List.suffix_cons c rest)

theorem start_within {text : List Char} (h : Limited source limit) (htext : text <:+ source) :
    (Token.start text).1.Within source limit (Token.start text).2 := by
  cases text with
  | nil => exact ⟨htext, nofun, nofun, nofun⟩
  | cons c rest =>
      have hrest := suffix_of_cons htext
      have hdrop : ∀ n, rest.drop n <:+ source := fun n => (List.drop_suffix n rest).trans hrest
      rw [Token.start]
      split_ifs with hdigit hword hquote
      · refine ⟨hdrop _, ?_, nofun, nofun⟩
        rintro n ⟨⟩
        have hle := h.number_le _ htext
        rwa [List.takeWhile_cons_of_pos hdigit] at hle
      · refine ⟨hdrop _, nofun, nofun, ?_⟩
        rintro w ⟨⟩
        exact List.cons_subset.mpr ⟨htext.subset List.mem_cons_self,
          fun c' hc' => hrest.subset ((List.takeWhile_sublist _).subset hc')⟩
      · have hrun := (List.drop_suffix 1 _).trans (runOf_suffix (· ≠ c) rest)
        exact ⟨hrun.trans hrest, nofun, nofun, nofun⟩
      · refine ⟨hrest, nofun, ?_, nofun⟩
        rintro c' ⟨⟩
        exact htext

theorem next_within {text : List Char} (h : Limited source limit) (htext : text <:+ source) :
    (Token.next text).1.Within source limit (Token.next text).2 := by
  rw [Token.next]
  split_ifs
  · exact ⟨htext, nofun, nofun, nofun⟩
  · exact start_within h ((List.dropWhile_suffix _).trans htext)

def Yields (source : List Char) (V : α → Prop) (r : Reader α) : Prop :=
  Ensures (· <:+ source) r (fun a rest => V a ∧ rest <:+ source) (Explains source)

variable {β : Type} {V : α → Prop} {W : β → Prop}

theorem yields_pure {a : α} (h : V a) : Yields source V (pure a) :=
  ensures_pure fun _ htext => ⟨h, htext⟩

theorem yields_throw {e : Error} : Yields source V (throw e) := ensures_throw

theorem Yields.bind {r : Reader α} {f : α → Reader β} (hr : Yields source V r)
    (hf : ∀ a, V a → Yields source W (f a)) : Yields source W (r >>= f) :=
  Ensures.bind hr fun a => ensures_of_and (hf a)

theorem yields_lift {x : Result Error α} (hok : ∀ a, x = .ok a → V a)
    (haborted : ∀ why, x = .aborted why → Explains source why) :
    Yields source V (liftM x : Reader α) :=
  ensures_lift (fun a ha _ htext => ⟨hok a ha, htext⟩) fun why hwhy _ _ => haborted why hwhy

theorem yields_peek? : Yields source (fun _ => True) peek? := fun _ htext => ⟨trivial, htext⟩

theorem yields_skip : Yields source (fun _ => True) skip :=
  fun text htext => ⟨trivial, (List.tail_suffix text).trans htext⟩

theorem yields_takes (c : Char) : Yields source (fun _ => True) (takes c) := by
  refine yields_peek?.bind fun next _ => ?_
  split_ifs
  · exact yields_skip.bind fun _ _ => yields_pure trivial
  · exact yields_pure trivial

section Limited

variable (h : Limited source limit)
include h

theorem ensures_token : Ensures (· <:+ source) token (Token.Within source limit)
    (Explains source) := fun _ htext => next_within h htext

theorem yields_token : Yields source (fun t => ∃ rest, t.Within source limit rest) token :=
  fun text htext => by
    have ht := next_within h htext
    exact ⟨⟨_, ht⟩, ht.rest_suffix⟩

theorem yields_number : Yields source (· ≤ limit) number := by
  refine (yields_token h).bind fun t ⟨rest, ht⟩ => ?_
  split
  · exact yields_pure (ht.number_le _ rfl)
  · exact yields_throw

theorem yields_mark : Yields source (fun _ => True) mark := by
  refine (yields_token h).bind fun t ht => ?_
  split
  · exact yields_pure trivial
  · exact yields_throw

theorem yields_markOf (wanted : Char) : Yields source (fun _ => True) (markOf wanted) := by
  refine (yields_mark h).bind fun found _ => ?_
  split_ifs
  · exact yields_throw
  · exact yields_pure trivial

theorem yields_readOffset : Yields source (fun o : Int => o.natAbs ≤ 3660 * limit) readOffset := by
  refine (yields_number h).bind fun n hn => ?_
  refine (yields_takes ':').bind fun colon _ => ?_
  split_ifs
  · refine (yields_number h).bind fun m hm => ?_
    exact yields_pure (by omega)
  · exact yields_pure (by omega)

omit h in
theorem yields_hourOfHalf (half : List Char) (hour : Nat) :
    Yields source (fun _ => True) (liftM (hourOfHalf half hour)) := by
  refine yields_lift (fun _ _ => trivial) fun why hwhy => ?_
  rw [hourOfHalf] at hwhy
  split_ifs at hwhy

omit h in
theorem within_universal (hour minute second : Nat) :
    Clock.Within source limit ⟨hour, minute, second, 0⟩ :=
  ⟨Nat.zero_le _, fun h => absurd rfl h⟩

theorem yields_readZone (hour minute second : Nat) {t : Token} {rest : List Char}
    (ht : t.Within source limit rest) :
    Yields source (Clock.Within source limit) (readZone hour minute second t) := by
  have hsign : ∀ c, t = .mark c → c ∈ source :=
    fun c hc => (ht.mark_suffix c hc).subset List.mem_cons_self
  unfold readZone
  split
  · refine (yields_readOffset h).bind fun o ho => yields_pure ⟨ho, fun _ => .inl (hsign _ rfl)⟩
  · refine (yields_readOffset h).bind fun o ho => yields_pure ⟨?_, fun _ => .inr (hsign _ rfl)⟩
    rwa [Int.natAbs_neg]
  · exact yields_throw
  · split_ifs
    · exact yields_pure (within_universal ..)
    · exact (yields_hourOfHalf _ hour).bind fun hour _ => yields_pure (within_universal ..)
  · exact yields_pure (within_universal ..)

omit h in
theorem ensures_skipFraction : Ensures (fun rest => '.' :: rest <:+ source) skipFraction
    (fun _ rest => rest <:+ source) (Explains source) := by
  refine ensures_get.bind fun text => ?_
  have hrest : ∀ why, checkFraction (Token.runOf Text.isNumeric text).1 = .aborted why →
      ∀ rest, text = rest ∧ '.' :: rest <:+ source → Explains source why := by
    rintro why hwhy rest ⟨rfl, htext⟩
    rw [checkFraction] at hwhy
    split_ifs at hwhy with hempty hfraction
    obtain rfl := Result.aborted.inj hwhy
    exact ⟨text, htext, hempty, Bool.eq_false_iff.mpr hfraction⟩
  refine (ensures_lift (fun _ _ _ htext => htext) hrest).bind fun _ => ?_
  refine ensures_set fun rest htext => (runOf_suffix _ _).trans ?_
  exact htext.1 ▸ suffix_of_cons htext.2

theorem ensures_readSeconds : Ensures (· <:+ source) readSeconds
    (fun (_, t) rest => t.Within source limit rest) (Explains source) := by
  refine (ensures_token h).bind fun t => ?_
  split
  · refine Ensures.bind ((yields_number h).weaken fun _ ht => ht.rest_suffix) fun second => ?_
    refine ensures_of_and fun _ => (ensures_token h).bind fun t => ?_
    exact ensures_pure fun rest ht => ht
  · exact ensures_throw
  · exact ensures_pure fun rest ht => ht

theorem yields_readColonTime (hour : Nat) :
    Yields source (Clock.Within source limit) (readColonTime hour) := by
  refine (yields_number h).bind fun minute _ => ?_
  refine Ensures.bind (ensures_readSeconds h) fun (second, t) => ?_
  dsimp only
  split_ifs with hpoint
  · refine Ensures.bind (ensures_skipFraction.weaken fun _ ht => ht.mark_suffix '.' hpoint)
      fun _ => ?_
    exact (yields_token h).bind fun t ⟨rest, ht⟩ => yields_readZone h hour minute second ht
  · exact fun text ht => yields_readZone h hour minute second ht text ht.rest_suffix

theorem yields_readPointTime (hour : Nat) :
    Yields source (Clock.Within source limit) (readPointTime hour) := by
  refine (yields_number h).bind fun minute _ => (yields_token h).bind fun t _ => ?_
  split
  · exact yields_pure (within_universal ..)
  · exact (yields_hourOfHalf _ hour).bind fun hour _ => yields_pure (within_universal ..)
  · exact yields_throw

omit h in
theorem within_some {c : Clock} (hc : c.Within source limit) :
    ∀ c' ∈ some c, c'.Within source limit := by
  rintro c' ⟨⟩
  exact hc

omit h in
theorem yields_some {r : Reader Clock} (hr : Yields source (Clock.Within source limit) r) :
    Yields source (fun clock => ∀ c ∈ clock, c.Within source limit) (return some (← r)) :=
  hr.bind fun _ hc => yields_pure (within_some hc)

theorem yields_readFreshTime :
    Yields source (fun clock => ∀ c ∈ clock, c.Within source limit) readFreshTime := by
  refine (yields_takes 'T').bind fun _ _ => (yields_token h).bind fun t _ => ?_
  split
  · exact yields_pure nofun
  · refine (yields_token h).bind fun t _ => ?_
    split
    · exact yields_some (yields_readColonTime h _)
    · exact yields_some (yields_readPointTime h _)
    · exact yields_throw
    · exact (yields_hourOfHalf _ _).bind fun hour _ =>
        yields_pure (within_some (within_universal ..))
    · exact yields_throw
  · exact yields_throw

theorem yields_readTime (ahead : Ahead) :
    Yields source (fun clock => ∀ c ∈ clock, c.Within source limit) (readTime ahead) := by
  cases ahead with
  | nothing => exact yields_readFreshTime h
  | exact hour => exact yields_pure (within_some (within_universal ..))
  | colon hour => exact yields_some (yields_readColonTime h hour)
  | point hour => exact yields_some (yields_readPointTime h hour)
  | hour hour =>
      refine (yields_mark h).bind fun c _ => ?_
      split
      · exact yields_some (yields_readColonTime h hour)
      · exact yields_some (yields_readPointTime h hour)
      · exact yields_throw

end Limited

end Phrase

end Forecast
