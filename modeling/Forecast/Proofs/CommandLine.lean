import Mathlib.Data.List.TakeWhile
import Mathlib.Logic.Relation
import Forecast.CommandLine
import Forecast.Proofs.Plan.Refinement
import Forecast.Proofs.Settings

namespace Forecast.CommandLine

inductive Valued where
  | reference
  | start
  | days
  deriving DecidableEq

/-- The options that take no value. What an equals sign joins to one of them is not read. -/
inductive Switch where
  | json
  | color
  | noColor

inductive Choice where
  | apart (name : Valued) (value : String)
  | attached (name : Valued) (value : String)
  | switch (name : Switch) (unread : Option String)

def IsInput (text : String) : Prop := text = "-" ∨ text.toList.head? ≠ some '-'
  deriving Decidable

inductive Entry where
  | choice (x : Choice)
  | input (text : String) (h : IsInput text)

inductive Key where
  | valued (name : Valued)
  | json
  | color
  deriving DecidableEq

namespace Valued

def flag : Valued → String
  | reference => "--reference"
  | start => "--start"
  | days => "--days"

def argument : Valued → String → Argument
  | reference => .today
  | start => .start
  | days => .days

end Valued

namespace Switch

def flag : Switch → String
  | json => "--json"
  | color => "--color"
  | noColor => "--no-color"

def argument : Switch → Argument
  | json => .json
  | color => .color true
  | noColor => .color false

def key : Switch → Key
  | json => .json
  | color => .color
  | noColor => .color

end Switch

namespace Choice

def args : Choice → List String
  | apart name value => [name.flag, value]
  | attached name value => [name.flag ++ "=" ++ value]
  | switch name none => [name.flag]
  | switch name (some text) => [name.flag ++ "=" ++ text]

def argument : Choice → Argument
  | apart name value => name.argument value
  | attached name value => name.argument value
  | switch name _ => name.argument

def key : Choice → Key
  | apart name _ => .valued name
  | attached name _ => .valued name
  | switch name _ => name.key

end Choice

namespace Entry

def args : Entry → List String
  | choice x => x.args
  | input text _ => [text]

def argument : Entry → Argument
  | choice x => x.argument
  | input text _ => .other text

def key? : Entry → Option Key
  | choice x => some x.key
  | input _ _ => none

end Entry

/-- One change to the entries: an option with a value takes its other form, an option goes to
another place between entries and passes none of its own key, or an option that has another one of
its key behind it is left out. -/
inductive Rearranges : List Entry → List Entry → Prop
  | attach (before after : List Entry) (name : Valued) (value : String) :
      Rearranges (before ++ .choice (.apart name value) :: after)
        (before ++ .choice (.attached name value) :: after)
  | detach (before after : List Entry) (name : Valued) (value : String) :
      Rearranges (before ++ .choice (.attached name value) :: after)
        (before ++ .choice (.apart name value) :: after)
  | later (before after : List Entry) {mid : List Entry} (x : Choice)
      (h : ∀ e ∈ mid, e.key? ≠ some x.key) :
      Rearranges (before ++ .choice x :: (mid ++ after)) (before ++ (mid ++ .choice x :: after))
  | sooner (before after : List Entry) {mid : List Entry} (x : Choice)
      (h : ∀ e ∈ mid, e.key? ≠ some x.key) :
      Rearranges (before ++ (mid ++ .choice x :: after)) (before ++ .choice x :: (mid ++ after))
  | drop (before after : List Entry) (x : Choice) (h : ∃ e ∈ after, e.key? = some x.key) :
      Rearranges (before ++ .choice x :: after) (before ++ after)

section Flags

variable {arg flag : String} {option : String → Argument}

def IsFlag (flag : String) : Prop := flag.toList.take 2 = ['-', '-'] ∧ '=' ∉ flag.toList
  deriving Decidable

theorem IsFlag.takeWhile_append (h : IsFlag flag) (after : List Char) :
    (flag.toList ++ after).takeWhile (· ≠ '=') = flag.toList ++ after.takeWhile (· ≠ '=') := by
  refine List.takeWhile_append_of_pos fun c hc => ?_
  rw [decide_eq_true_eq]
  rintro rfl
  exact h.2 hc

theorem IsFlag.splitFlag (h : IsFlag flag) : splitFlag flag = (flag, none) := by
  have htake := h.takeWhile_append []
  rw [List.takeWhile_nil, List.append_nil] at htake
  simp only [CommandLine.splitFlag, htake, List.drop_length]
  split <;> simp_all

theorem IsFlag.splitFlag_append (h : IsFlag flag) (value : String) :
    CommandLine.splitFlag (flag ++ "=" ++ value) = (flag, some value) := by
  have htext : (flag ++ "=" ++ value).toList = flag.toList ++ '=' :: value.toList := by
    simp [String.toList_append]
  have htake := h.takeWhile_append ('=' :: value.toList)
  rw [List.takeWhile_cons_of_neg (by simp), List.append_nil] at htake
  obtain ⟨text, hflag⟩ : ∃ text, flag.toList = '-' :: '-' :: text :=
    ⟨flag.toList.drop 2, by rw [← List.take_append_drop 2 flag.toList, h.1]; rfl⟩
  rw [CommandLine.splitFlag, htext, htake, List.drop_left, hflag]
  change (String.ofList ('-' :: '-' :: text), some (String.ofList value.toList)) = _
  rw [← hflag, String.ofList_toList, String.ofList_toList]

theorem Valued.isFlag_flag (name : Valued) : IsFlag name.flag := by
  cases name <;> decide

theorem Switch.isFlag_flag (name : Switch) : IsFlag name.flag := by
  cases name <;> decide

theorem splitFlag_of_isInput (h : IsInput arg) : splitFlag arg = (arg, none) := by
  rcases h with rfl | h
  · decide
  · rw [splitFlag]
    split
    · rename_i text value hflag hrest
      have hhead : (arg.toList.takeWhile (· ≠ '=')).head? = some '-' := by rw [hflag]; rfl
      rw [List.head?_takeWhile] at hhead
      exact absurd (Option.filter_eq_some_iff.mp hhead).1 h
    · rfl

theorem splitFlag_cases (arg : String) :
    splitFlag arg = (arg, none) ∨
      ∃ flag value, splitFlag arg = (flag, some value) ∧ arg = flag ++ "=" ++ value := by
  rw [splitFlag]
  split
  · rename_i text value hflag hrest
    have hsplit : arg.toList.takeWhile (· ≠ '=') ++ '=' :: value = arg.toList := by
      rw [← hrest]
      exact List.prefix_iff_eq_append.mp (List.takeWhile_prefix _)
    have hmark : "=".toList = ['='] := rfl
    refine .inr ⟨_, _, rfl, ?_⟩
    rw [← String.toList_inj, String.toList_append, String.toList_append, List.append_assoc, hmark]
    simpa only [String.toList_ofList, List.singleton_append] using hsplit.symm
  · exact .inl rfl

theorem valueOption?_eq_some (h : valueOption? flag = some option) :
    ∃ name : Valued, flag = name.flag ∧ option = name.argument := by
  unfold valueOption? at h
  split at h
  · exact ⟨.reference, rfl, (Option.some.inj h).symm⟩
  · exact ⟨.start, rfl, (Option.some.inj h).symm⟩
  · exact ⟨.days, rfl, (Option.some.inj h).symm⟩
  · cases h

theorem Valued.valueOption?_flag (name : Valued) : valueOption? name.flag = some name.argument := by
  cases name <;> rfl

theorem Switch.valueOption?_flag (name : Switch) : valueOption? name.flag = none := by
  cases name <;> rfl

theorem Switch.plainArgument_flag (name : Switch) (arg : String) :
    plainArgument arg name.flag = name.argument := by
  cases name <;> rfl

theorem IsInput.valueOption? (h : IsInput arg) : valueOption? arg = none := by
  cases hoption : CommandLine.valueOption? arg with
  | none => rfl
  | some option =>
      obtain ⟨name, rfl, -⟩ := valueOption?_eq_some hoption
      cases name <;> exact absurd h (by decide)

theorem IsInput.plainArgument (h : IsInput arg) : plainArgument arg arg = .other arg := by
  unfold CommandLine.plainArgument
  split
  case h_8 => rfl
  all_goals exact absurd h (by decide)

end Flags

section Split

variable {arg flag value : String} {option : String → Argument}

theorem split_cons_attached (hflag : splitFlag arg = (flag, some value))
    (hoption : valueOption? flag = some option) (rest : List String) :
    split (arg :: rest) = option value :: split rest := by
  cases rest <;> simp only [split, hflag, hoption]

theorem split_cons_apart (hflag : splitFlag arg = (flag, none))
    (hoption : valueOption? flag = some option) (value : String) (rest : List String) :
    split (arg :: value :: rest) = option value :: split rest := by
  simp only [split, hflag, hoption]

theorem split_cons_plain (hoption : valueOption? (splitFlag arg).1 = none) (rest : List String) :
    split (arg :: rest) = plainArgument arg (splitFlag arg).1 :: split rest := by
  cases rest <;> simp only [split, hoption]

theorem Entry.split_args (e : Entry) (rest : List String) :
    split (e.args ++ rest) = e.argument :: split rest := by
  cases e with
  | choice x =>
      cases x with
      | apart name value =>
          exact split_cons_apart name.isFlag_flag.splitFlag name.valueOption?_flag _ _
      | attached name value =>
          have hflag := name.isFlag_flag.splitFlag_append value
          exact split_cons_attached hflag name.valueOption?_flag _
      | switch name unread =>
          obtain ⟨arg, harg, hflag⟩ : ∃ arg, (Choice.switch name unread).args = [arg] ∧
              (splitFlag arg).1 = name.flag := by
            cases unread with
            | none => exact ⟨_, rfl, by rw [name.isFlag_flag.splitFlag]⟩
            | some text => exact ⟨_, rfl, by rw [name.isFlag_flag.splitFlag_append]⟩
          rw [args, harg, List.singleton_append, split_cons_plain, hflag, name.plainArgument_flag]
          · rfl
          · rw [hflag, name.valueOption?_flag]
  | input text h =>
      rw [args, List.singleton_append, split_cons_plain, splitFlag_of_isInput h, h.plainArgument]
      · rfl
      · rw [splitFlag_of_isInput h, h.valueOption?]

theorem split_flatMap_args (entries : List Entry) :
    split (entries.flatMap Entry.args) = entries.map Entry.argument := by
  induction entries with
  | nil => rfl
  | cons e entries ih => rw [List.flatMap_cons, Entry.split_args, ih, List.map_cons]

theorem exists_entry_of_plain {c c' : Config}
    (h : c.apply (plainArgument arg (splitFlag arg).1) = .ok c') : ∃ e : Entry, e.args = [arg] := by
  have hswitch : ∀ name : Switch, (splitFlag arg).1 = name.flag → ∃ e : Entry, e.args = [arg] := by
    intro name hname
    rcases splitFlag_cases arg with hflag | ⟨flag, text, hflag, harg⟩
    · rw [hflag] at hname
      exact ⟨.choice (.switch name none), congrArg (fun flag => [flag]) hname.symm⟩
    · rw [hflag] at hname
      obtain rfl : flag = name.flag := hname
      exact ⟨.choice (.switch name (some text)), congrArg (fun arg => [arg]) harg.symm⟩
  unfold plainArgument at h
  split at h
  case h_1 | h_2 | h_3 | h_4 => cases h
  case h_5 hflag => exact hswitch .color hflag
  case h_6 hflag => exact hswitch .noColor hflag
  case h_7 hflag => exact hswitch .json hflag
  case h_8 =>
      rw [Config.apply, Config.addOther] at h
      split_ifs at h with hstdin hhyphen
      · exact ⟨.input arg (.inl hstdin.1), rfl⟩
      · exact ⟨.input arg (.inr hhyphen), rfl⟩

theorem exists_entry {rest : List String} {c c' : Config}
    (h : (split (arg :: rest)).foldlM Config.apply c = .ok c') :
    ∃ (e : Entry) (rest' : List String) (c₁ : Config), arg :: rest = e.args ++ rest' ∧
      (split rest').foldlM Config.apply c₁ = .ok c' := by
  cases hoption : valueOption? (splitFlag arg).1 with
  | none =>
      rw [split_cons_plain hoption, List.foldlM_cons, bind_eq_ok_iff] at h
      obtain ⟨c₁, hc₁, h⟩ := h
      obtain ⟨e, he⟩ := exists_entry_of_plain hc₁
      exact ⟨e, rest, c₁, by rw [he, List.singleton_append], h⟩
  | some option =>
      obtain ⟨name, hname, rfl⟩ := valueOption?_eq_some hoption
      rcases splitFlag_cases arg with hflag | ⟨flag, value, hflag, rfl⟩
      · rw [hflag] at hname hoption
        obtain rfl : arg = name.flag := hname
        cases rest with
        | nil =>
            simp only [split, hflag, hoption] at h
            cases h
        | cons value rest =>
            rw [split_cons_apart hflag hoption, List.foldlM_cons, bind_eq_ok_iff] at h
            obtain ⟨c₁, -, h⟩ := h
            exact ⟨.choice (.apart name value), rest, c₁, rfl, h⟩
      · rw [hflag] at hname hoption
        obtain rfl : flag = name.flag := hname
        rw [split_cons_attached hflag hoption, List.foldlM_cons, bind_eq_ok_iff] at h
        obtain ⟨c₁, -, h⟩ := h
        exact ⟨.choice (.attached name value), rest, c₁, rfl, h⟩

theorem Entry.length_args_pos (e : Entry) : 0 < e.args.length := by
  rcases e with (⟨name, value⟩ | ⟨name, value⟩ | ⟨name, _ | text⟩) | ⟨text, h⟩ <;>
    exact Nat.succ_pos _

theorem exists_entries {args : List String} {c c' : Config}
    (h : (split args).foldlM Config.apply c = .ok c') :
    ∃ entries : List Entry, entries.flatMap Entry.args = args := by
  -- An entry takes one argument or two, so the induction is on how many are left.
  induction hn : args.length using Nat.strong_induction_on generalizing args c with
  | _ n ih =>
      subst hn
      cases args with
      | nil => exact ⟨[], rfl⟩
      | cons arg rest =>
          obtain ⟨e, rest', c₁, hargs, h⟩ := exists_entry h
          have hlt : rest'.length < (arg :: rest).length := by
            rw [hargs, List.length_append]
            exact Nat.lt_add_of_pos_left e.length_args_pos
          obtain ⟨entries, rfl⟩ := ih _ hlt h rfl
          exact ⟨e :: entries, hargs.symm⟩

end Split

inductive Change where
  | reference (d : Date)
  | start (d : Date)
  | days (n : Nat)
  | json
  | color (on : Bool)

def Change.key : Change → Key
  | reference _ => .valued .reference
  | start _ => .valued .start
  | days _ => .valued .days
  | json => .json
  | color _ => .color

def Config.change (c : Config) : Change → Config
  | .reference d => { c with request.today := d }
  | .start d => { c with request.start := some d }
  | .days n => { c with request.days := some n }
  | .json => { c with json := true }
  | .color on => { c with color := on }

def Valued.read (value : String) : Valued → Except Stop Change
  | reference => (readDate "--reference" value).map .reference
  | start => (readDate "--start" value).map .start
  | days => (readDays? value).elim (.error (.badDays value)) fun n => .ok (.days n)

def Switch.change : Switch → Change
  | json => .json
  | color => .color true
  | noColor => .color false

def Choice.read : Choice → Except Stop Change
  | apart name value => name.read value
  | attached name value => name.read value
  | switch name _ => .ok name.change

variable {c c' : Config} {a b : Change} {x : Choice} {e : Entry}

theorem Valued.apply_argument (name : Valued) (value : String) (c : Config) :
    c.apply (name.argument value) = (name.read value).map c.change := by
  cases name with
  | reference =>
      simp only [argument, read, Config.apply]
      cases readDate "--reference" value <;> rfl
  | start =>
      simp only [argument, read, Config.apply]
      cases readDate "--start" value <;> rfl
  | days =>
      simp only [argument, read, Config.apply]
      cases readDays? value <;> rfl

theorem Valued.key_of_read {name : Valued} {value : String} (h : name.read value = .ok a) :
    a.key = .valued name := by
  cases name with
  | reference =>
      obtain ⟨d, -, rfl⟩ := map_eq_ok_iff.mp h
      rfl
  | start =>
      obtain ⟨d, -, rfl⟩ := map_eq_ok_iff.mp h
      rfl
  | days =>
      rw [read] at h
      cases hn : readDays? value with
      | none =>
          rw [hn] at h
          cases h
      | some n =>
          rw [hn] at h
          obtain rfl := Except.ok.inj h
          rfl

theorem Choice.apply_argument (x : Choice) (c : Config) :
    c.apply x.argument = x.read.map c.change := by
  cases x with
  | apart name value => exact name.apply_argument value c
  | attached name value => exact name.apply_argument value c
  | switch name unread => cases name <;> rfl

theorem Choice.key_of_read (h : x.read = .ok a) : a.key = x.key := by
  cases x with
  | apart name value => exact Valued.key_of_read h
  | attached name value => exact Valued.key_of_read h
  | switch name unread =>
      obtain rfl := Except.ok.inj h
      cases name <;> rfl

theorem change_comm (h : a.key ≠ b.key) (c : Config) :
    (c.change a).change b = (c.change b).change a := by
  cases a <;> cases b <;> first | rfl | exact absurd rfl h

theorem change_change (h : a.key = b.key) (c : Config) : (c.change a).change b = c.change b := by
  cases a <;> cases b <;> first | rfl | cases h

theorem addOther_change (c : Config) (a : Change) (text : String) :
    (c.change a).addOther text = (c.addOther text).map (·.change a) := by
  have hpath : (c.change a).path = c.path := by cases a <;> rfl
  have hset : { c.change a with path := some text } = { c with path := some text }.change a := by
    cases a <;> rfl
  rw [Config.addOther, Config.addOther, hpath, hset]
  split_ifs <;> rfl

/-- What an entry does is not affected by an earlier change of another key. -/
theorem apply_change (h : e.key? ≠ some a.key) (c : Config) :
    (c.change a).apply e.argument = (c.apply e.argument).map (·.change a) := by
  cases e with
  | choice x =>
      rw [Entry.argument, x.apply_argument, x.apply_argument]
      cases hread : x.read with
      | error stop => rfl
      | ok b =>
          have hkey : a.key ≠ b.key := fun hab => h (by rw [hab, x.key_of_read hread]; rfl)
          exact congrArg Except.ok (change_comm hkey c)
  | input text hinput => exact addOther_change c a text

def run (c : Config) (entries : List Entry) : Except Stop Config :=
  (entries.map Entry.argument).foldlM Config.apply c

variable {v w mid : List Entry}

theorem run_cons_eq_ok_iff :
    run c (e :: w) = .ok c' ↔ ∃ c₁, c.apply e.argument = .ok c₁ ∧ run c₁ w = .ok c' := by
  rw [run, List.map_cons, List.foldlM_cons, bind_eq_ok_iff]
  rfl

theorem run_append_eq_ok_iff :
    run c (v ++ w) = .ok c' ↔ ∃ c₁, run c v = .ok c₁ ∧ run c₁ w = .ok c' := by
  rw [run, List.map_append, List.foldlM_append, bind_eq_ok_iff]
  rfl

theorem run_choice_eq_ok_iff :
    run c (.choice x :: w) = .ok c' ↔ ∃ a, x.read = .ok a ∧ run (c.change a) w = .ok c' := by
  rw [run_cons_eq_ok_iff, Entry.argument, x.apply_argument]
  constructor
  · rintro ⟨c₁, hread, h⟩
    obtain ⟨a, ha, rfl⟩ := map_eq_ok_iff.mp hread
    exact ⟨a, ha, h⟩
  · rintro ⟨a, ha, h⟩
    exact ⟨c.change a, map_eq_ok_iff.mpr ⟨a, ha, rfl⟩, h⟩

theorem run_change (h : ∀ e ∈ mid, e.key? ≠ some a.key) (c : Config) :
    run (c.change a) mid = (run c mid).map (·.change a) := by
  induction mid generalizing c with
  | nil => rfl
  | cons e mid ih =>
      obtain ⟨he, hmid⟩ := List.forall_mem_cons.mp h
      rw [run, run, List.map_cons, List.foldlM_cons, List.foldlM_cons, apply_change he]
      cases c.apply e.argument with
      | error stop => rfl
      | ok c₁ => exact ih hmid c₁

theorem run_choice_append_iff (h : ∀ e ∈ mid, e.key? ≠ some x.key) :
    run c (.choice x :: (mid ++ w)) = .ok c' ↔ run c (mid ++ .choice x :: w) = .ok c' := by
  rw [run_choice_eq_ok_iff, run_append_eq_ok_iff]
  have hrun : ∀ a, x.read = .ok a → run (c.change a) mid = (run c mid).map (·.change a) :=
    fun a ha => run_change (x.key_of_read ha ▸ h) c
  constructor
  · rintro ⟨a, ha, h⟩
    obtain ⟨c₁, hchanged, hw⟩ := run_append_eq_ok_iff.mp h
    rw [hrun a ha] at hchanged
    obtain ⟨c₂, hmid, rfl⟩ := map_eq_ok_iff.mp hchanged
    exact ⟨c₂, hmid, run_choice_eq_ok_iff.mpr ⟨a, ha, hw⟩⟩
  · rintro ⟨c₂, hmid, h⟩
    obtain ⟨a, ha, hw⟩ := run_choice_eq_ok_iff.mp h
    refine ⟨a, ha, run_append_eq_ok_iff.mpr ⟨c₂.change a, ?_, hw⟩⟩
    rw [hrun a ha, hmid]
    rfl

theorem run_of_run_change (hkey : ∃ e ∈ w, e.key? = some a.key) (h : run (c.change a) w = .ok c') :
    run c w = .ok c' := by
  -- The change is carried along up to the next option of its key, which makes up for it.
  induction w generalizing c with
  | nil =>
      obtain ⟨e, he, -⟩ := hkey
      cases he
  | cons e w ih =>
      by_cases he : e.key? = some a.key
      · cases e with
        | input text hinput => cases he
        | choice x =>
            obtain ⟨b, hb, h⟩ := run_choice_eq_ok_iff.mp h
            have hab : a.key = b.key := (x.key_of_read hb).symm ▸ (Option.some.inj he).symm
            rw [change_change hab] at h
            exact run_choice_eq_ok_iff.mpr ⟨b, hb, h⟩
      · obtain ⟨c₁, hc₁, h⟩ := run_cons_eq_ok_iff.mp h
        rw [apply_change he] at hc₁
        obtain ⟨c₂, hc₂, rfl⟩ := map_eq_ok_iff.mp hc₁
        obtain ⟨e', he', hkey'⟩ := hkey
        rcases List.mem_cons.mp he' with rfl | he'
        · exact absurd hkey' he
        · exact run_cons_eq_ok_iff.mpr ⟨c₂, hc₂, ih ⟨e', he', hkey'⟩ h⟩

theorem run_form (before after : List Entry) (name : Valued) (value : String) (c : Config) :
    run c (before ++ .choice (.apart name value) :: after) =
      run c (before ++ .choice (.attached name value) :: after) := by
  rw [run, run, List.map_append, List.map_append]
  rfl

theorem Rearranges.run_eq_ok (h : Rearranges v w) (hrun : run c v = .ok c') : run c w = .ok c' := by
  cases h with
  | attach before after name value => rwa [← run_form]
  | detach before after name value => rwa [run_form]
  | later before after x h =>
      obtain ⟨c₁, hbefore, hrun⟩ := run_append_eq_ok_iff.mp hrun
      exact run_append_eq_ok_iff.mpr ⟨c₁, hbefore, (run_choice_append_iff h).mp hrun⟩
  | sooner before after x h =>
      obtain ⟨c₁, hbefore, hrun⟩ := run_append_eq_ok_iff.mp hrun
      exact run_append_eq_ok_iff.mpr ⟨c₁, hbefore, (run_choice_append_iff h).mpr hrun⟩
  | drop before after x h =>
      obtain ⟨c₁, hbefore, hrun⟩ := run_append_eq_ok_iff.mp hrun
      obtain ⟨a, ha, hrun⟩ := run_choice_eq_ok_iff.mp hrun
      rw [← x.key_of_read ha] at h
      exact run_append_eq_ok_iff.mpr ⟨c₁, hbefore, run_of_run_change h hrun⟩

theorem run_eq_ok_of_rearranges (h : Relation.ReflTransGen Rearranges v w)
    (hrun : run c v = .ok c') : run c w = .ok c' := by
  induction h with
  | refl => exact hrun
  | tail _ hstep ih => exact hstep.run_eq_ok ih

theorem parse_flatMap_args (today : Date) (terminal : Bool) (entries : List Entry) :
    parse today terminal (entries.flatMap Entry.args) =
      run ⟨none, ⟨today, none, none⟩, false, terminal⟩ entries := by
  rw [parse, split_flatMap_args, run]

variable {read : Option String → Id (Except ReadError ByteArray)} {today : Date} {terminal : Bool}
  {args : List String} {source : List Char}

theorem load_eq_ok_iff :
    load read today terminal args = .ok (c, source) ↔
      parse today terminal args = .ok c ∧ c.source (read c.file?) = .ok source := by
  cases h : parse today terminal args with
  | error stop =>
      have hload : load read today terminal args = .error stop.outcome := by
        rw [load, h]
        rfl
      exact ⟨fun hok => (nomatch hload.symm.trans hok), nofun⟩
  | ok c' =>
      have hload : load read today terminal args = (c'.source (read c'.file?)).map (c', ·) := by
        rw [load, h]
        rfl
      rw [hload]
      constructor
      · intro hok
        obtain ⟨source', hsource, heq⟩ := map_eq_ok_iff.mp hok
        cases heq
        exact ⟨rfl, hsource⟩
      · rintro ⟨heq, hsource⟩
        cases heq
        exact map_eq_ok_iff.mpr ⟨source, hsource, rfl⟩

/-- Options may be given in any order and in either form. An accepted list of arguments is made of
entries, and any other list made of rearranged entries is accepted, with the same configuration and
the same script. -/
theorem load_rearranged (h : load read today terminal args = .ok (c, source)) :
    (∃ entries : List Entry, entries.flatMap Entry.args = args) ∧
      ∀ entries entries' : List Entry, entries.flatMap Entry.args = args →
        Relation.ReflTransGen Rearranges entries entries' →
          load read today terminal (entries'.flatMap Entry.args) = .ok (c, source) := by
  obtain ⟨hparse, hsource⟩ := load_eq_ok_iff.mp h
  refine ⟨exists_entries hparse, ?_⟩
  rintro entries entries' rfl hrearranges
  rw [parse_flatMap_args] at hparse
  refine load_eq_ok_iff.mpr ⟨?_, hsource⟩
  rw [parse_flatMap_args]
  exact run_eq_ok_of_rearranges hrearranges hparse

def oneVariable : Option String → Id (Except ReadError ByteArray) := fun _ => .ok "var a = 1".toUTF8

theorem load_rearranged_days :
    ∃ c source, load oneVariable leapDay true ["--days", "5", "--no-color", "plan", "--days=7"] =
        .ok (c, source) ∧ c.request.days = some 7 ∧ c.color = false ∧
      load oneVariable leapDay true ["plan", "--days", "7", "--no-color"] = .ok (c, source) := by
  have hload : load oneVariable leapDay true ["--days", "5", "--no-color", "plan", "--days=7"] =
      .ok (⟨some "plan", ⟨leapDay, none, some 7⟩, false, false⟩, "var a = 1".toList) := rfl
  let switch : Choice := .switch .noColor none
  let plan : Entry := .input "plan" (by decide)
  have hdrop : Rearranges
      [.choice (.apart .days "5"), .choice switch, plan, .choice (.attached .days "7")]
      [.choice switch, plan, .choice (.attached .days "7")] :=
    .drop [] _ (.apart .days "5") ⟨.choice (.attached .days "7"), by simp, rfl⟩
  have hdetach : Rearranges [.choice switch, plan, .choice (.attached .days "7")]
      [.choice switch, plan, .choice (.apart .days "7")] :=
    .detach [.choice switch, plan] [] .days "7"
  have hlater : Rearranges [.choice switch, plan, .choice (.apart .days "7")]
      [plan, .choice (.apart .days "7"), .choice switch] := by
    refine @Rearranges.later [] [] [plan, .choice (.apart .days "7")] switch ?_
    rw [List.forall_mem_cons, List.forall_mem_singleton]
    exact ⟨nofun, nofun⟩
  have hsteps := ((Relation.ReflTransGen.single hdrop).tail hdetach).tail hlater
  exact ⟨_, _, hload, rfl, rfl, (load_rearranged hload).2 _ _ rfl hsteps⟩

/-- A place between a flag and its value is not one between two entries. -/
example : parse leapDay true ["--days", "--json", "7"] = .error (.badDays "--json") := rfl

end Forecast.CommandLine
