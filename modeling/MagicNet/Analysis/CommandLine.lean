import MagicNet.Model.CommandLine

/-!
# What the command line can say

An option is set where it stands on the command line, and its value is the argument after the last
place where it stands, unless that is an option itself or there is none (`valueOf`).  So the names that
can be set have one char: a longer name is never found, whatever the arguments are, and the launcher
never takes its branches for `help` and `version`.

SOURCE: commandLineOption.cc:5-45, launcher/src/main.cc:27-79
-/

set_option autoImplicit false

namespace MagicNet.CommandLine

variable {args : List (List Char)} {m : Map (List Char)}

/-- The argument `-c`. -/
def dash (c : Char) : List Char := ['-', c]

/-- An option is a dash and one char.
SOURCE: commandLineOption.cc:9-33 -/
theorem isOption_iff {arg : List Char} : isOption arg = true ↔ ∃ c, arg = dash c := by
  match arg with
  | [] => simp [isOption, dash]
  | [_] => simp [isOption, dash]
  | [a, c] => simp [isOption, dash]
  | _ :: _ :: _ :: _ => simp [isOption, dash]

/-- The value of an option that is followed by these arguments. -/
def valueOf : List (List Char) → List Char
  | [] => []
  | next :: _ => if isOption next then [] else next

/-- What the last place where `-c` stands says of it. -/
def lastValue (c : Char) : List (List Char) → Option (List Char)
  | [] => none
  | arg :: args => (lastValue c args).or (if arg = dash c then some (valueOf args) else none)

/-- The loop overrides what it finds, from left to right. -/
theorem lookup_parseArgs (c : Char) :
    (parseArgs m args).lookup [c] = (lastValue c args).or (m.lookup [c]) := by
  induction args generalizing m with
  | nil => rfl
  | cons arg args ih =>
    by_cases harg : isOption arg = true
    · obtain ⟨d, rfl⟩ := isOption_iff.mp harg
      have hstep : parseArgs m (dash d :: args) = parseArgs (m.insert [d] (valueOf args)) args := by
        cases args with
        | nil => simp [parseArgs, dash, valueOf]
        | cons next args =>
          by_cases hnext : isOption next = true
          · simp [parseArgs, dash, valueOf, hnext]
          · simp [parseArgs, dash, valueOf, hnext, AList.insert_insert]
      rw [hstep, ih, lastValue, Option.or_assoc]
      congr 1
      by_cases hdc : d = c
      · subst hdc
        simp
      · have hne : [c] ≠ [d] := fun h => hdc (List.cons.inj h).1.symm
        have hdash : dash d ≠ dash c := fun h => hdc (by simpa [dash] using h)
        rw [AList.lookup_insert_ne hne, if_neg hdash, Option.none_or]
    · have hcond : arg.length ≠ 2 ∨ arg.head? ≠ some '-' := by
        simpa [isOption, ← not_and_or] using harg
      have hne : arg ≠ dash c := fun h => harg (isOption_iff.mpr ⟨c, h⟩)
      rw [parseArgs, if_pos hcond, ih, lastValue, if_neg hne, Option.or_none]

/-- Names that are not one char are left alone. -/
theorem lookup_parseArgs_of_length {name : List Char} (hname : name.length ≠ 1) :
    (parseArgs m args).lookup name = m.lookup name := by
  induction args generalizing m with
  | nil => rfl
  | cons arg args ih =>
    have hne (x : Char) : name ≠ [x] := fun h => hname (by rw [h]; rfl)
    unfold parseArgs
    split
    · exact ih
    · cases args with
      | nil => simp [parseArgs, AList.lookup_insert_ne (hne _)]
      | cons next args =>
        simp only [ih]
        split <;> simp [AList.lookup_insert_ne (hne _)]

/-- An option has a value where it stands in the line. -/
theorem lastValue_isSome (c : Char) : (lastValue c args).isSome = true ↔ dash c ∈ args := by
  induction args with
  | nil => simp [lastValue]
  | cons arg args ih =>
    rw [lastValue, Option.isSome_or, Bool.or_eq_true, ih, List.mem_cons]
    by_cases h : arg = dash c
    · simp [h]
    · simp [h, Ne.symm h]

/-- The last place where `-c` stands. -/
theorem lastValue_append {before after : List (List Char)} (c : Char) (h : dash c ∉ after) :
    lastValue c (before ++ dash c :: after) = some (valueOf after) := by
  induction before with
  | nil =>
    have hnone : lastValue c after = none := by
      rw [← Option.not_isSome_iff_eq_none, lastValue_isSome]
      exact h
    simp [lastValue, hnone]
  | cons arg before ih => simp [lastValue, ih]

/-- Given options, the arguments that say so: each with its value or without one. -/
def render (opts : List (Char × Option (List Char))) : List (List Char) :=
  opts.flatMap fun o => dash o.1 :: o.2.toList

/-- Written out, each option has its value.
SOURCE: commandLineOption.cc:43-45 -/
theorem lastValue_render {opts : List (Char × Option (List Char))}
    (hval : ∀ o ∈ opts, ∀ v ∈ o.2, isOption v = false) (hnodup : (opts.map Prod.fst).Nodup)
    {o : Char × Option (List Char)} (ho : o ∈ opts) :
    lastValue o.1 (render opts) = some (o.2.getD []) := by
  obtain ⟨before, after, rfl⟩ := List.append_of_mem ho
  have hafter : o.1 ∉ after.map Prod.fst := by
    rw [List.map_append, List.map_cons] at hnodup
    exact (List.nodup_cons.mp (List.nodup_append.mp hnodup).2.1).1
  have hdash : dash o.1 ∉ o.2.toList ++ render after := by
    intro hmem
    rcases List.mem_append.mp hmem with hmem | hmem
    · have hv := hval o ho (dash o.1) (Option.mem_toList.mp hmem)
      simp [isOption, dash] at hv
    · obtain ⟨p, hp, hmem⟩ := List.mem_flatMap.mp hmem
      rcases List.mem_cons.mp hmem with heq | hmem
      · apply hafter
        rw [List.mem_map]
        exact ⟨p, hp, by simpa [dash] using heq.symm⟩
      · have hv := hval p (by simp [hp]) (dash o.1) (Option.mem_toList.mp hmem)
        simp [isOption, dash] at hv
  have hvalue : valueOf (o.2.toList ++ render after) = o.2.getD [] := by
    cases hv : o.2 with
    | some v => simp [valueOf, hval o ho v hv]
    | none =>
      cases after with
      | nil => rfl
      | cons p after => simp [render, valueOf, isOption, dash]
  have hargs : render (before ++ o :: after)
      = render before ++ dash o.1 :: (o.2.toList ++ render after) := by
    simp [render]
  rw [hargs, lastValue_append _ hdash, hvalue]

/-- For every command line that an object without options parses: an option is set exactly when its
name is one char and stands there behind a dash; its value is what follows the last place, where that
is no option; the options that are required have been given where the result is true; and options with
their values, written out in any order, are read back.
SOURCE: commandLineOption.cc:9-33, 35-37, 39-41, 43-45 -/
theorem parse_exact (m_required : Map Bool) (args : List (List Char)) :
    (∀ name, ((⟨m_required, ∅⟩ : CommandLineOption).parse args).2.isSet name = true ↔
      ∃ c, name = [c] ∧ dash c ∈ args) ∧
    (∀ c before after, args = before ++ dash c :: after → dash c ∉ after →
      (((⟨m_required, ∅⟩ : CommandLineOption).parse args).2.getOption [c]).1 = valueOf after) ∧
    (((⟨m_required, ∅⟩ : CommandLineOption).parse args).1 = true ↔
      ∀ name, true ∈ m_required.lookup name → ∃ c, name = [c] ∧ dash c ∈ args) ∧
    (∀ opts : List (Char × Option (List Char)), (∀ o ∈ opts, ∀ v ∈ o.2, isOption v = false) →
      (opts.map Prod.fst).Nodup → args = render opts → ∀ o ∈ opts,
        (((⟨m_required, ∅⟩ : CommandLineOption).parse args).2.getOption [o.1]).1 = o.2.getD []) := by
  have hset (name : List Char) : ((parseArgs ∅ args).lookup name).isSome = true ↔
      ∃ c, name = [c] ∧ dash c ∈ args := by
    by_cases hname : name.length = 1
    · obtain ⟨c, rfl⟩ := List.length_eq_one_iff.mp hname
      rw [lookup_parseArgs, AList.lookup_empty, Option.or_none, lastValue_isSome]
      simp
    · rw [lookup_parseArgs_of_length hname, AList.lookup_empty]
      simp only [Option.isSome_none, Bool.false_eq_true, false_iff]
      rintro ⟨c, rfl, -⟩
      exact hname rfl
  have hget {c : Char} {v : List Char} (h : lastValue c args = some v) :
      (((⟨m_required, ∅⟩ : CommandLineOption).parse args).2.getOption [c]).1 = v := by
    simp [CommandLineOption.parse, CommandLineOption.getOption, lookup_parseArgs, h]
  refine ⟨hset, ?_, ?_, ?_⟩
  · rintro c before after rfl hafter
    exact hget (lastValue_append c hafter)
  · simp only [CommandLineOption.parse, List.all_eq_true, Bool.or_eq_true, Bool.not_eq_true', hset]
    constructor
    · intro h name hname
      exact (h ⟨name, true⟩ (AList.mem_lookup_iff.mp hname)).resolve_left Bool.noConfusion
    · rintro h ⟨name, required⟩ he
      cases required with
      | false => exact .inl rfl
      | true => exact .inr (h name (AList.mem_lookup_iff.mpr he))
  · rintro opts hval hnodup rfl o ho
    exact hget (lastValue_render hval hnodup ho)

/-- `-p` with a path, and `-d`, which has no value.
SOURCE: commandLineOption.cc:9-33, 39-41 -/
theorem parse_exact_launch :
    (((⟨∅, ∅⟩ : CommandLineOption).parse (render [('p', some ['x']), ('d', none)])).2.getOption
      ['p']).1 = ['x'] :=
  (parse_exact ∅ _).2.2.2 _ (by decide) (by decide) rfl ('p', some ['x']) (by simp)

/-- The launcher reads every command line, and runs the engine: `help` and `version` have more than one
char. -/
theorem main_runs (argv : List (List Char)) :
    main argv = .run (decide (dash 'd' ∈ argv)) ((lastValue 'p' argv).getD []) := by
  have hset (name : List Char) : ((options.parse argv).2.isSet name) =
      ((parseArgs ∅ argv).lookup name).isSome := rfl
  have hlong {name : List Char} (hname : name.length ≠ 1) :
      (options.parse argv).2.isSet name = false := by
    rw [hset, lookup_parseArgs_of_length hname]
    rfl
  have hparsed : (options.parse argv).1 = true := by
    rw [CommandLineOption.parse, List.all_eq_true]
    have hrequired : ∀ e ∈ options.m_required.entries, e.2 = false := by decide
    intro e he
    simp [hrequired e he]
  have hd : (options.parse argv).2.isSet ['d'] = decide (dash 'd' ∈ argv) := by
    rw [hset, lookup_parseArgs, AList.lookup_empty, Option.or_none, Bool.eq_iff_iff,
      lastValue_isSome, decide_eq_true_iff]
  have hp : ((options.parse argv).2.getOption ['p']).1 = (lastValue 'p' argv).getD [] := by
    have hlookup : (options.parse argv).2.m_options.lookup ['p'] = lastValue 'p' argv := by
      change (parseArgs ∅ argv).lookup ['p'] = _
      rw [lookup_parseArgs, AList.lookup_empty, Option.or_none]
    rw [CommandLineOption.getOption, hlookup]
    cases lastValue 'p' argv <;> rfl
  have hhelp : (options.parse argv).2.isSet "help".toList = false := hlong (by decide)
  have hversion : (options.parse argv).2.isSet "version".toList = false := hlong (by decide)
  simp only [main, hparsed, hd, hp, hhelp, hversion]
  cases decide (dash 'd' ∈ argv) <;> rfl

end MagicNet.CommandLine
