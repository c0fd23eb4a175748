import IncludeAtlas.Proofs.Command.Line
import IncludeAtlas.Proofs.Palette.Base
import IncludeAtlas.Proofs.Traversal

/-!
# Spelled command lines

What can be said about a scan on a command line can be spelled so that it is read back: every switch
by its long name, with its value behind an equals sign, and the roots behind two hyphens, so that
none of them is taken for a switch.

## Main Definitions

* `Flags`: what is to be said
* `Flags.arguments`: what it means
* `Flags.line`: how it is spelled

## Main Results

* `Flags.ofArguments?_line`: what is spelled is cut into its words
* `Flags.ofWords?_words`: the words mean what was to be said
* `Flags.parse?_line`: the command line asks for a scan with these arguments

## Design notes

An empty path cannot be said.  The minimum of the colors' opacity is said in the words of whoever
says it, since two spellings of it may be read alike.
-/

namespace IncludeAtlas

/-! ## Switches without a value -/

namespace Word

variable {v : Verb} {args : List String} {ws : List Word}

theorem ofArgument?_switch {s : Switch} (takes : s.takesValue = false)
    (fits : s.fits (some v) = true) :
    ofArgument? (some v) ("--" ++ s.long).toList = some ([.switch s], none) := by
  have unequal : ∀ c ∈ s.long.toList, decide (c ≠ '=') = true := by
    intro c hc
    rw [decide_eq_true_eq]
    rintro rfl
    exact absurd hc s.notMem_long
  have text : ("--" ++ s.long).toList = '-' :: '-' :: s.long.toList := by simp
  have name : s.long.toList.takeWhile (· ≠ '=') = s.long.toList :=
    List.takeWhile_eq_self_iff.2 unequal
  have rest : s.long.toList.dropWhile (· ≠ '=') = [] := List.dropWhile_eq_nil_iff.2 unequal
  rw [text, ofArgument?, ofLong?, name, rest, Switch.ofLong?_eq_some_iff.2 ⟨rfl, fits⟩]
  simp only [bind, Option.bind_some, takes]
  rfl

/-- A switch without a value may be set before all other words. -/
theorem ofArguments?_switch {s : Switch} (takes : s.takesValue = false)
    (fits : s.fits (some v) = true) (h : ofArguments? v none args = some ws) :
    ofArguments? v none (("--" ++ s.long) :: args) = some (.switch s :: ws) := by
  have goesOn : "--" ++ s.long ≠ "--" := by
    cases s <;> simp [Switch.long]
  have noOperand : isOperand ("--" ++ s.long).toList = false := by
    simp [isOperand]
  rw [ofArguments?, if_neg goesOn, noOperand, if_neg Bool.false_ne_true,
    ofArgument?_switch takes fits]
  simp only [h, Option.map_some, List.singleton_append]

/-- Switches without a value may be set in a row. -/
theorem ofArguments?_switches {ss : List Switch}
    (all : ∀ s ∈ ss, s.takesValue = false ∧ s.fits (some v) = true)
    (h : ofArguments? v none args = some ws) :
    ofArguments? v none (ss.map (fun s => "--" ++ s.long) ++ args) =
      some (ss.map .switch ++ ws) := by
  induction ss with
  | nil => exact h
  | cons s ss ih =>
      obtain ⟨⟨takes, fits⟩, others⟩ := List.forall_mem_cons.1 all
      exact ofArguments?_switch takes fits (ih others)

/-- A switch may be set to many values in a row. -/
theorem ofArguments?_valued_append {s : Switch} (takes : s.takesValue = true)
    (fits : s.fits (some v) = true) (values : List String)
    (h : ofArguments? v none args = some ws) :
    ofArguments? v none (values.map (fun x => "--" ++ s.long ++ "=" ++ x) ++ args) =
      some (values.map (.valued s) ++ ws) := by
  induction values with
  | nil => exact h
  | cons x values ih => exact ofArguments?_valued takes fits ih

/-- Switches may be set to their values one after another. -/
theorem ofArguments?_valued_flatMap {bs : List (Switch × List String)}
    (all : ∀ b ∈ bs, b.1.takesValue = true ∧ b.1.fits (some v) = true)
    (h : ofArguments? v none args = some ws) :
    ofArguments? v none
        (bs.flatMap (fun b => b.2.map fun x => "--" ++ b.1.long ++ "=" ++ x) ++ args) =
      some (bs.flatMap (fun b => b.2.map (.valued b.1)) ++ ws) := by
  induction bs with
  | nil => exact h
  | cons b bs ih =>
      obtain ⟨⟨takes, fits⟩, others⟩ := List.forall_mem_cons.1 all
      rw [List.flatMap_cons, List.flatMap_cons, List.append_assoc, List.append_assoc]
      exact ofArguments?_valued_append takes fits b.2 (ih others)

end Word

/-! ## Flags -/

/-- What is to be said on a command line. -/
structure Flags where
  config : Option String
  roots : List String
  patterns : List String
  directories : List String
  relation : Option Relation
  granularity : Option Nat
  fullPath : Bool
  colors : Option String
  variation : Option UInt32
  alphaMin : Option String
  seed : Option UInt64
  honorIgnoreFiles : Bool

namespace Flags

variable (F : Flags)

/-- What the flags say about a scan. -/
def arguments : ScanArguments where
  roots := F.roots.map Path.ofString
  patterns := F.patterns
  directories := F.directories.map Path.ofString
  relation := F.relation
  granularity := F.granularity
  fullPath := F.fullPath
  colors := F.colors
  variation := F.variation
  alphaMin := F.alphaMin.bind fun t => Decimal.read? t.toList
  seed := F.seed
  honorIgnoreFiles := F.honorIgnoreFiles

/-- The flags can be said: no path is empty, and the numbers can be read. -/
structure Fits : Prop where
  config : ∀ p ∈ F.config, p ≠ ""
  roots : ∀ p ∈ F.roots, p ≠ ""
  directories : ∀ p ∈ F.directories, p ≠ ""
  granularity : ∀ n ∈ F.granularity, n < UInt64.size
  alphaMin : ∀ t ∈ F.alphaMin, (Decimal.read? t.toList).isSome = true

/-- The switches with a value, and their values. -/
def valued : List (Switch × List String) :=
  [(.config, F.config.toList), (.pattern, F.patterns), (.directory, F.directories),
    (.relation, F.relation.toList.map Relation.name),
    (.granularity, F.granularity.toList.map Natural.text), (.colors, F.colors.toList),
    (.variation, F.variation.toList.map fun n => Natural.text n.toNat),
    (.alphaMin, F.alphaMin.toList), (.seed, F.seed.toList.map fun n => Natural.text n.toNat)]

/-- The switches without a value. -/
def switches : List Switch :=
  (if F.fullPath then [.fullPath] else []) ++
    (if F.honorIgnoreFiles then [.honorIgnoreFiles] else [])

/-- The words of the flags. -/
def words : List Word :=
  F.valued.flatMap (fun b => b.2.map (.valued b.1)) ++
    (F.switches.map .switch ++ F.roots.map .operand)

/-- The flags as they are spelled. -/
def line : List String :=
  F.valued.flatMap (fun b => b.2.map fun x => "--" ++ b.1.long ++ "=" ++ x) ++
    (F.switches.map (fun s => "--" ++ s.long) ++ "--" :: F.roots)

theorem valued_fits : ∀ b ∈ F.valued, b.1.takesValue = true ∧ b.1.fits (some .index) = true := by
  simp only [valued, List.forall_mem_cons]
  exact ⟨by decide, by decide, by decide, by decide, by decide, by decide, by decide, by decide,
    by decide, List.forall_mem_nil _⟩

theorem switches_fit : ∀ s ∈ F.switches, s.takesValue = false ∧ s.fits (some .index) = true := by
  intro s mem
  have one : s = .fullPath ∨ s = .honorIgnoreFiles := by
    rcases List.mem_append.1 mem with mem | mem
    · exact .inl (List.mem_singleton.1 (List.mem_ite_nil_right.1 mem).2)
    · exact .inr (List.mem_singleton.1 (List.mem_ite_nil_right.1 mem).2)
  rcases one with rfl | rfl
  · decide
  · decide

/-- **What is spelled is cut into its words.** -/
theorem ofArguments?_line : Word.ofArguments? .index none F.line = some F.words := by
  have operands :
      Word.ofArguments? .index none ("--" :: F.roots) = some (F.roots.map .operand) := by
    rw [Word.ofArguments?, if_pos rfl]
  exact Word.ofArguments?_valued_flatMap F.valued_fits
    (Word.ofArguments?_switches F.switches_fit operands)

/-! ## What the words mean -/

theorem filterMap_valueFor?_map {s t : Switch} (xs : List String) :
    (xs.map (Word.valued t)).filterMap (Words.valueFor? s) = if s = t then xs else [] := by
  induction xs with
  | nil => simp
  | cons x xs ih =>
      rw [List.map_cons, List.filterMap_cons, ih, Words.valueFor?]
      split_ifs <;> rfl

theorem filterMap_valueFor?_flatMap {bs : List (Switch × List String)} {s : Switch}
    {xs : List String} (distinct : (bs.map Prod.fst).Nodup) (mem : (s, xs) ∈ bs) :
    (bs.flatMap fun b => b.2.map (.valued b.1)).filterMap (Words.valueFor? s) = xs := by
  induction bs with
  | nil => cases mem
  | cons b bs ih =>
      obtain ⟨new, others⟩ := List.nodup_cons.1 distinct
      rw [List.flatMap_cons, List.filterMap_append, filterMap_valueFor?_map]
      rcases List.mem_cons.1 mem with rfl | mem
      · -- the values of a switch are all in one place
        have none : (bs.flatMap fun b => b.2.map (Word.valued b.1)).filterMap (Words.valueFor? s) =
            [] := by
          rw [List.filterMap_eq_nil_iff]
          intro w there
          obtain ⟨b, inside, there⟩ := List.mem_flatMap.1 there
          obtain ⟨x, -, rfl⟩ := List.mem_map.1 there
          refine if_neg ?_
          rintro rfl
          exact new (List.mem_map.2 ⟨_, inside, rfl⟩)
        rw [if_pos rfl, none, List.append_nil]
      · have other : s ≠ b.1 := by
          rintro rfl
          exact new (List.mem_map.2 ⟨_, mem, rfl⟩)
        rw [if_neg other, List.nil_append, ih others mem]

variable {F} {α β : Type} {s : Switch}

theorem nodup_valued : (F.valued.map Prod.fst).Nodup := by
  simp only [valued, List.map_cons, List.map_nil]
  decide

/-- The values of a switch. -/
theorem values?_words {xs : List String} (mem : (s, xs) ∈ F.valued) (read? : String → Option α) :
    Words.values? s read? F.words = xs.mapM read? := by
  have switches : (F.switches.map Word.switch).filterMap (Words.valueFor? s) = [] := by
    simp [List.filterMap_eq_nil_iff, Words.valueFor?]
  have operands : (F.roots.map Word.operand).filterMap (Words.valueFor? s) = [] := by
    simp [List.filterMap_eq_nil_iff, Words.valueFor?]
  rw [Words.values?, words, List.filterMap_append, List.filterMap_append, switches, operands,
    filterMap_valueFor?_flatMap nodup_valued mem, List.append_nil, List.append_nil]

/-- The value of a switch that is set at most once. -/
theorem single?_words {o : Option β} {encode : β → String} {decode : β → α}
    {read? : String → Option α} (mem : (s, o.toList.map encode) ∈ F.valued)
    (reads : ∀ b ∈ o, read? (encode b) = some (decode b)) :
    Words.single? s read? F.words = some (o.map decode) := by
  rw [Words.single?, values?_words mem]
  cases o with
  | none => rfl
  | some b =>
      show ([encode b].mapM read?).map List.head? = _
      rw [List.mapM_cons, reads b rfl]
      rfl

theorem single?_words_text {o : Option String} {decode : String → α} {read? : String → Option α}
    (mem : (s, o.toList) ∈ F.valued) (reads : ∀ t ∈ o, read? t = some (decode t)) :
    Words.single? s read? F.words = some (o.map decode) := by
  rw [← List.map_id o.toList] at mem
  exact single?_words mem reads

theorem filterMap_switch?_words : F.words.filterMap Words.switch? =
    F.valued.flatMap (fun b => List.replicate b.2.length b.1) ++ F.switches := by
  have switches : (F.switches.map Word.switch).filterMap Words.switch? = F.switches := by
    induction F.switches with
    | nil => rfl
    | cons s ss ih => rw [List.map_cons, List.filterMap_cons, ih]; rfl
  have operands : (F.roots.map Word.operand).filterMap Words.switch? = [] := by
    simp [List.filterMap_eq_nil_iff, Words.switch?]
  have valued : ∀ b : Switch × List String,
      (b.2.map (Word.valued b.1)).filterMap Words.switch? = List.replicate b.2.length b.1 := by
    rintro ⟨s, xs⟩
    induction xs with
    | nil => rfl
    | cons x xs ih => rw [List.map_cons, List.filterMap_cons, ih]; rfl
  rw [words, List.filterMap_append, List.filterMap_append, switches, operands, List.append_nil,
    List.filterMap_flatMap]
  simp only [valued]

theorem natural?_text {bound n : Nat} (le : n ≤ bound) :
    Argument.natural? bound (Natural.text n) = some n := by
  have read : Natural.read bound (Natural.digits n) = .ok n :=
    Natural.read_eq_ok_iff.2 ⟨_, .inl rfl, isDigits_toDigits n,
      Nat.ofDigitChars_toDigits (by decide) (by decide), le⟩
  rw [Argument.natural?, Natural.text, String.toList_ofList, read]
  rfl

theorem ranged?_text {bound n : Nat} (le : n ≤ bound) :
    Argument.ranged? bound (Natural.text n) = some n := by
  have natural := natural?_text le
  rw [Argument.natural?, Natural.text, String.toList_ofList] at natural
  rw [Argument.ranged?, Natural.text, String.toList_ofList]
  split
  · rename_i ds eq
    have digits := (isDigits_toDigits n).2
    rw [← Natural.digits, eq] at digits
    cases digits '-' List.mem_cons_self
  · exact natural

theorem isSet_words : Words.isSet .fullPath F.words = F.fullPath ∧
    Words.isSet .honorIgnoreFiles F.words = F.honorIgnoreFiles := by
  rw [Words.isSet, Words.isSet, filterMap_switch?_words]
  cases full : F.fullPath <;> cases honor : F.honorIgnoreFiles <;>
    simp [valued, switches, full, honor]

/-- No switch is set more often than it may be. -/
theorem wellCounted_words : Words.wellCounted F.words = true := by
  have once : ∀ {β : Type} (o : Option β), o.toList.length ≤ 1 := fun o => by cases o <;> simp
  rw [Words.wellCounted, filterMap_switch?_words, List.all_eq_true]
  intro s _
  cases full : F.fullPath <;> cases honor : F.honorIgnoreFiles <;> cases s <;>
    simp [valued, switches, full, honor, Switch.repeats, List.count_replicate, once]

theorem path?_eq {p : String} (named : p ≠ "") : Argument.path? p = some (Path.ofString p) :=
  if_neg named

theorem operands_words : F.words.filterMap Words.operand? = F.roots := by
  have valued : (F.valued.flatMap fun b => b.2.map (Word.valued b.1)).filterMap Words.operand? =
      [] := by
    rw [List.filterMap_eq_nil_iff]
    intro w mem
    obtain ⟨b, -, mem⟩ := List.mem_flatMap.1 mem
    obtain ⟨x, -, rfl⟩ := List.mem_map.1 mem
    rfl
  have switches : (F.switches.map Word.switch).filterMap Words.operand? = [] := by
    simp [List.filterMap_eq_nil_iff, Words.operand?]
  rw [words, List.filterMap_append, List.filterMap_append, valued, switches, List.nil_append,
    List.nil_append]
  induction F.roots with
  | nil => rfl
  | cons p ps ih => rw [List.map_cons, List.filterMap_cons, ih]; rfl

theorem operands?_words (fits : F.Fits) :
    Words.operands? Argument.path? F.words = some (F.roots.map Path.ofString) := by
  rw [Words.operands?, operands_words]
  exact mapM_eq_some_map fun p mem => path?_eq (fits.roots p mem)

theorem values?_pattern : Words.values? .pattern some F.words = some F.patterns := by
  rw [values?_words (show (Switch.pattern, F.patterns) ∈ F.valued by simp [valued])]
  simpa using mapM_eq_some_map fun p (_ : p ∈ F.patterns) => show some p = some (id p) from rfl

theorem values?_directory (fits : F.Fits) :
    Words.values? .directory Argument.path? F.words = some (F.directories.map Path.ofString) := by
  rw [values?_words (show (Switch.directory, F.directories) ∈ F.valued by simp [valued])]
  exact mapM_eq_some_map fun p mem => path?_eq (fits.directories p mem)

theorem single?_alphaMin (fits : F.Fits) :
    Words.single? .alphaMin (fun s => Decimal.read? s.toList) F.words =
      some F.arguments.alphaMin := by
  have same : (F.alphaMin.map fun t => (Decimal.read? t.toList).getD 0) = F.arguments.alphaMin := by
    rw [arguments]
    cases said : F.alphaMin with
    | none => rfl
    | some t =>
        obtain ⟨x, read⟩ := Option.isSome_iff_exists.1 (fits.alphaMin t said)
        simp [read]
  rw [← same]
  refine single?_words_text (show (_, F.alphaMin.toList) ∈ F.valued by simp [valued])
    fun t mem => ?_
  obtain ⟨x, read⟩ := Option.isSome_iff_exists.1 (fits.alphaMin t mem)
  rw [read, Option.getD_some]

/-- **The words mean what was to be said.** -/
theorem ofWords?_words (fits : F.Fits) : ScanArguments.ofWords? F.words = some F.arguments := by
  have relation :
      Words.single? .relation Argument.relation? F.words = some (F.relation.map id) := by
    refine single?_words (show (_, F.relation.toList.map Relation.name) ∈ F.valued by simp [valued])
      fun r _ => ?_
    rw [Argument.relation?, Relation.parse_name]
    rfl
  have granularity : Words.single? .granularity (Argument.natural? (UInt64.size - 1)) F.words =
      some (F.granularity.map id) :=
    single?_words (show (_, F.granularity.toList.map Natural.text) ∈ F.valued by simp [valued])
      fun n mem => natural?_text (Nat.le_sub_one_of_lt (fits.granularity n mem))
  have colors : Words.single? .colors some F.words = some (F.colors.map id) :=
    single?_words_text (show (_, F.colors.toList) ∈ F.valued by simp [valued]) fun _ _ => rfl
  have variation : Words.single? .variation (Argument.ranged? (UInt32.size - 1)) F.words =
      some (F.variation.map UInt32.toNat) :=
    single?_words
      (show (_, F.variation.toList.map fun n => Natural.text n.toNat) ∈ F.valued by simp [valued])
      fun n _ => ranged?_text (Nat.le_sub_one_of_lt n.toNat_lt_size)
  have seed : Words.single? .seed (Argument.natural? (UInt64.size - 1)) F.words =
      some (F.seed.map UInt64.toNat) :=
    single?_words
      (show (_, F.seed.toList.map fun n => Natural.text n.toNat) ∈ F.valued by simp [valued])
      fun n _ => natural?_text (Nat.le_sub_one_of_lt n.toNat_lt_size)
  have sameVariation : (F.variation.map UInt32.toNat).map Nat.toUInt32 = F.variation := by
    cases F.variation <;> simp
  have sameSeed : (F.seed.map UInt64.toNat).map Nat.toUInt64 = F.seed := by
    cases F.seed <;> simp
  rw [ScanArguments.ofWords?, operands?_words fits, values?_pattern, values?_directory fits,
    relation, granularity, colors, variation, single?_alphaMin fits, seed, isSet_words.1, isSet_words.2]
  simp only [Option.bind_eq_bind, Option.bind_some, Option.map_id_fun, id_eq, sameVariation,
    sameSeed]
  rfl

/-- **A spelled command line asks for a scan with its arguments.** -/
theorem parse?_line (fits : F.Fits) :
    Command.parse? ("index" :: F.line) = some ⟨F.config.map Path.ofString, .index F.arguments⟩ := by
  have config : Words.single? .config Argument.path? F.words = some (F.config.map Path.ofString) :=
    single?_words_text (show (_, F.config.toList) ∈ F.valued by simp [valued])
      fun p mem => path?_eq (fits.config p mem)
  rw [Command.parse?_verb (by cbv) rfl, ofArguments?_line, Option.bind_some, Command.ofLine?_after]
  refine ⟨wellCounted_words, config, ?_⟩
  show (ScanArguments.ofWords? F.words).bind _ = _
  rw [ofWords?_words fits]
  rfl

end Flags

end IncludeAtlas
