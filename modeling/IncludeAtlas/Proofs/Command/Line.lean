import IncludeAtlas.Command.Read
import Mathlib.Data.List.Basic

/-!
# Command lines that ask for one scan

What is said about a scan is said in the same words whatever is to become of it.  So the words
after the verb can be carried from one command to another one that understands them.

## Main Definitions

* `Command.AskAlike`: three command lines count, print and write what one scan finds

## Main Results

* `Word.ofArguments?_mono`: words keep their meaning under a verb that understands more switches
* `Word.ofArguments?_valued`: a switch may be set before all other words
* `Command.askAlike_of_parse?`: a command line that counts can be turned into one that prints and
  into one that writes

## What is load-bearing

A spelling belongs to one switch, under every verb (`Switch.ofLong?_eq_some_iff`).  A verb that
understands more could otherwise take a word for another switch.
-/

namespace IncludeAtlas

/-! ## Switches -/

namespace Switch

variable {s t : Switch} {verb : Option Verb} {name : List Char} {c : Char}

theorem mem_all (s : Switch) : s ∈ all := by
  cases s <;> decide

/-- No two switches are spelled alike. -/
theorem long_inj (h : s.long = t.long) : s = t := by
  revert h
  cases s <;> cases t <;> simp [long]

theorem notMem_long (s : Switch) : '=' ∉ s.long.toList := by
  cases s <;> simp [long]

/-- No letter stands for two switches. -/
theorem eq_of_mem_letters (hs : c ∈ s.letters) (ht : c ∈ t.letters) : s = t := by
  have first : ∀ s : Switch, ∀ c ∈ s.letters, all.find? (fun t => c ∈ t.letters) = some s := by
    intro s
    cases s <;> simp [letters, all]
  exact Option.some.inj ((first s c hs).symm.trans (first t c ht))

/-- A long spelling is that of the switch that has it and is understood. -/
theorem ofLong?_eq_some_iff :
    ofLong? verb name = some s ↔ s.long.toList = name ∧ s.fits verb = true := by
  constructor
  · intro found
    simpa using List.find?_some found
  · rintro ⟨rfl, fits⟩
    cases found : ofLong? verb s.long.toList with
    | none =>
        have := List.find?_eq_none.1 found s s.mem_all
        simp [fits] at this
    | some t =>
        have spelled := List.find?_some found
        simp only [Bool.and_eq_true, decide_eq_true_eq] at spelled
        rw [long_inj (String.toList_inj.1 spelled.1)]

/-- A letter is that of the switch that has it and is understood. -/
theorem ofLetter?_eq_some_iff :
    ofLetter? verb c = some s ↔ c ∈ s.letters ∧ s.fits verb = true := by
  constructor
  · intro found
    simpa using List.find?_some found
  · rintro ⟨mem, fits⟩
    cases found : ofLetter? verb c with
    | none =>
        have := List.find?_eq_none.1 found s s.mem_all
        simp [mem, fits] at this
    | some t =>
        have spelled := List.find?_some found
        simp only [Bool.and_eq_true, decide_eq_true_eq] at spelled
        rw [eq_of_mem_letters spelled.1 mem]

/-- What is understood when counting is understood when writing the document. -/
theorem fits_document (h : s.fits (some .index) = true) : s.fits (some .document) = true := by
  simp only [fits, Bool.or_eq_true] at h ⊢
  exact h.imp_right .inl

end Switch

/-! ## Words -/

namespace Word

variable {v v' : Verb} {verb : Option Verb} {a : List Char} {r : List Word × Option Switch}
  {pending : Option Switch} {args : List String} {ws : List Word}

/-- A verb understands all switches that another one does. -/
def Wider (v v' : Verb) : Prop :=
  ∀ s : Switch, s.fits (some v) = true → s.fits (some v') = true

theorem ofLong?_mono (wider : Wider v v') (h : ofLong? (some v) a = some r) :
    ofLong? (some v') a = some r := by
  obtain ⟨s, found, rest⟩ := Option.bind_eq_some_iff.1 h
  obtain ⟨spelled, fits⟩ := Switch.ofLong?_eq_some_iff.1 found
  exact Option.bind_eq_some_iff.2
    ⟨s, Switch.ofLong?_eq_some_iff.2 ⟨spelled, wider s fits⟩, rest⟩

theorem ofLetters?_mono (wider : Wider v v') (h : ofLetters? (some v) a = some r) :
    ofLetters? (some v') a = some r := by
  induction a generalizing r with
  | nil => exact h
  | cons c rest ih =>
      rw [ofLetters?] at h ⊢
      obtain ⟨s, found, h⟩ := Option.bind_eq_some_iff.1 h
      obtain ⟨spelled, fits⟩ := Switch.ofLetter?_eq_some_iff.1 found
      refine Option.bind_eq_some_iff.2
        ⟨s, Switch.ofLetter?_eq_some_iff.2 ⟨spelled, wider s fits⟩, ?_⟩
      split at h
      · rename_i takes
        rw [if_pos takes]
        exact h
      · rename_i takes
        rw [if_neg takes]
        obtain ⟨more, read, h⟩ := Option.bind_eq_some_iff.1 h
        exact Option.bind_eq_some_iff.2 ⟨more, ih read, h⟩

theorem ofArgument?_mono (wider : Wider v v') (h : ofArgument? (some v) a = some r) :
    ofArgument? (some v') a = some r := by
  unfold ofArgument? at h ⊢
  split at h
  · exact ofLong?_mono wider h
  · exact ofLetters?_mono wider h
  · cases h

/-- **Words keep their meaning under a verb that understands more switches.** -/
theorem ofArguments?_mono (wider : Wider v v') (h : ofArguments? v pending args = some ws) :
    ofArguments? v' pending args = some ws := by
  induction args generalizing pending ws with
  | nil =>
      cases pending with
      | none => exact h
      | some s => cases h
  | cons a rest ih =>
      cases pending with
      | some s =>
          rw [ofArguments?] at h ⊢
          split at h
          · rename_i operand
            obtain ⟨ws', read, rfl⟩ := Option.map_eq_some_iff.1 h
            rw [if_pos operand, ih read]
            rfl
          · cases h
      | none =>
          rw [ofArguments?] at h ⊢
          split at h
          · rename_i ends
            rw [if_pos ends]
            exact h
          · rename_i ends
            rw [if_neg ends]
            split at h
            · rename_i operand
              obtain ⟨ws', read, rfl⟩ := Option.map_eq_some_iff.1 h
              rw [if_pos operand, ih read]
              rfl
            · rename_i operand
              rw [if_neg operand]
              split at h
              · rename_i ws₁ pending₁ cut
                obtain ⟨ws', read, rfl⟩ := Option.map_eq_some_iff.1 h
                simp only [ofArgument?_mono wider cut, ih read, Option.map_some]
              · cases h

/-- The letters of a long spelling with its value. -/
theorem toList_valued (s : Switch) (value : String) :
    ("--" ++ s.long ++ "=" ++ value).toList =
      '-' :: '-' :: (s.long.toList ++ '=' :: value.toList) := by
  simp

/-- A value may stand behind an equals sign. -/
theorem ofArgument?_valued {s : Switch} {value : String} (takes : s.takesValue = true)
    (fits : s.fits (some v) = true) :
    ofArgument? (some v) ("--" ++ s.long ++ "=" ++ value).toList =
      some ([.valued s value], none) := by
  have unequal : ∀ c ∈ s.long.toList, decide (c ≠ '=') = true := by
    intro c hc
    rw [decide_eq_true_eq]
    rintro rfl
    exact absurd hc s.notMem_long
  have name : (s.long.toList ++ '=' :: value.toList).takeWhile (· ≠ '=') = s.long.toList := by
    rw [List.takeWhile_append_of_pos unequal]
    simp
  have rest : (s.long.toList ++ '=' :: value.toList).dropWhile (· ≠ '=') =
      '=' :: value.toList := by
    rw [List.dropWhile_append_of_pos unequal]
    simp
  rw [toList_valued, ofArgument?, ofLong?, name, rest, Switch.ofLong?_eq_some_iff.2 ⟨rfl, fits⟩]
  simp only [bind, Option.bind_some, takes]
  rw [String.ofList_toList]
  rfl

/-- **A switch may be set before all other words**, with its value behind an equals sign. -/
theorem ofArguments?_valued {s : Switch} {value : String} (takes : s.takesValue = true)
    (fits : s.fits (some v) = true) (h : ofArguments? v none args = some ws) :
    ofArguments? v none (("--" ++ s.long ++ "=" ++ value) :: args) =
      some (.valued s value :: ws) := by
  have goesOn : "--" ++ s.long ++ "=" ++ value ≠ "--" := by
    intro eq
    have := congrArg String.toList eq
    rw [toList_valued] at this
    simp at this
  have noOperand : isOperand ("--" ++ s.long ++ "=" ++ value).toList = false := by
    rw [toList_valued]
    simp [isOperand]
  rw [ofArguments?, if_neg goesOn, noOperand, if_neg Bool.false_ne_true,
    ofArgument?_valued takes fits]
  simp only [h, Option.map_some, List.singleton_append]

/-- The switches that some words set are understood by a verb. -/
def Understood (verb : Option Verb) (ws : List Word) : Prop :=
  ∀ s ∈ ws.filterMap Words.switch?, s.fits verb = true

theorem understood_cons {w : Word} (h : ∀ s, Words.switch? w = some s → s.fits verb = true)
    (hs : Understood verb ws) : Understood verb (w :: ws) := by
  intro s mem
  rw [List.filterMap_cons] at mem
  cases set : Words.switch? w with
  | none =>
      rw [set] at mem
      exact hs s mem
  | some t =>
      rw [set] at mem
      rcases List.mem_cons.1 mem with rfl | mem
      · exact h _ set
      · exact hs s mem

theorem understood_append {ws' : List Word} (h : Understood verb ws) (h' : Understood verb ws') :
    Understood verb (ws ++ ws') := by
  intro s mem
  rw [List.filterMap_append] at mem
  exact (List.mem_append.1 mem).elim (h s) (h' s)

/-- Operands set no switch. -/
theorem understood_operands (texts : List String) : Understood verb (texts.map .operand) := by
  intro s mem
  obtain ⟨w, mem, set⟩ := List.mem_filterMap.1 mem
  obtain ⟨text, -, rfl⟩ := List.mem_map.1 mem
  cases set

theorem understood_ofLong? (h : ofLong? verb a = some (ws, pending)) :
    Understood verb ws ∧ ∀ s, pending = some s → s.fits verb = true := by
  obtain ⟨s, found, h⟩ := Option.bind_eq_some_iff.1 h
  have fits := (Switch.ofLong?_eq_some_iff.1 found).2
  split at h
  all_goals cases h
  · exact ⟨by simpa [Understood, Words.switch?] using fits, fun _ => nofun⟩
  · refine ⟨List.forall_mem_nil _, ?_⟩
    rintro _ ⟨⟩
    exact fits
  · exact ⟨by simpa [Understood, Words.switch?] using fits, fun _ => nofun⟩

theorem understood_ofLetters? (h : ofLetters? verb a = some (ws, pending)) :
    Understood verb ws ∧ ∀ s, pending = some s → s.fits verb = true := by
  induction a generalizing ws pending with
  | nil =>
      cases h
      exact ⟨List.forall_mem_nil _, fun _ => nofun⟩
  | cons c rest ih =>
      rw [ofLetters?] at h
      obtain ⟨s, found, h⟩ := Option.bind_eq_some_iff.1 h
      have fits := (Switch.ofLetter?_eq_some_iff.1 found).2
      split at h
      · split at h
        all_goals cases h
        · refine ⟨List.forall_mem_nil _, ?_⟩
          rintro _ ⟨⟩
          exact fits
        · exact ⟨by simpa [Understood, Words.switch?] using fits, fun _ => nofun⟩
        · exact ⟨by simpa [Understood, Words.switch?] using fits, fun _ => nofun⟩
      · obtain ⟨⟨ws', pending'⟩, read, h⟩ := Option.bind_eq_some_iff.1 h
        cases h
        obtain ⟨understood, opened⟩ := ih read
        refine ⟨understood_cons ?_ understood, opened⟩
        rintro _ ⟨⟩
        exact fits

theorem understood_ofArgument? (h : ofArgument? verb a = some (ws, pending)) :
    Understood verb ws ∧ ∀ s, pending = some s → s.fits verb = true := by
  unfold ofArgument? at h
  split at h
  · exact understood_ofLong? h
  · exact understood_ofLetters? h
  · cases h

/-- **The words after a verb are words that it understands.** -/
theorem understood_ofArguments? (opened : ∀ s, pending = some s → s.fits (some v) = true)
    (h : ofArguments? v pending args = some ws) : Understood (some v) ws := by
  have closed : ∀ s : Switch, none = some s → s.fits (some v) = true := fun _ => nofun
  induction args generalizing pending ws with
  | nil =>
      cases pending with
      | none =>
          cases h
          exact List.forall_mem_nil _
      | some s => cases h
  | cons a rest ih =>
      cases pending with
      | some s =>
          rw [ofArguments?] at h
          split at h
          · obtain ⟨ws', read, rfl⟩ := Option.map_eq_some_iff.1 h
            refine understood_cons ?_ (ih closed read)
            rintro _ ⟨⟩
            exact opened s rfl
          · cases h
      | none =>
          rw [ofArguments?] at h
          split at h
          · -- behind two hyphens there are operands only
            cases h
            exact understood_operands rest
          · split at h
            · obtain ⟨ws', read, rfl⟩ := Option.map_eq_some_iff.1 h
              exact understood_cons (fun _ => nofun) (ih closed read)
            · split at h
              · rename_i ws₁ pending₁ cut
                obtain ⟨ws', read, rfl⟩ := Option.map_eq_some_iff.1 h
                obtain ⟨first, opened₁⟩ := understood_ofArgument? cut
                exact understood_append first (ih opened₁ read)
              · cases h

end Word

/-! ## Values -/

namespace Words

variable {ws : List Word} {s : Switch} {value : String}

/-- A switch that is not set has no values. -/
theorem filterMap_valueFor?_eq_nil (h : s ∉ ws.filterMap switch?) :
    ws.filterMap (valueFor? s) = [] := by
  rw [List.filterMap_eq_nil_iff]
  intro w hw
  cases w with
  | valued t v =>
      have ne : s ≠ t := by
        rintro rfl
        exact h (List.mem_filterMap.2 ⟨_, hw, rfl⟩)
      exact if_neg ne
  | switch t => rfl
  | operand a => rfl

/-- A value for one switch is none for another one. -/
theorem values?_cons_valued {α : Type} {t : Switch} (ne : t ≠ s) (read? : String → Option α) :
    values? t read? (.valued s value :: ws) = values? t read? ws := by
  rw [values?, List.filterMap_cons, valueFor?, if_neg ne, values?]

theorem single?_cons_valued {α : Type} {t : Switch} (ne : t ≠ s) (read? : String → Option α) :
    single? t read? (.valued s value :: ws) = single? t read? ws := by
  rw [single?, values?_cons_valued ne, single?]

theorem isSet_cons_valued {t : Switch} (ne : t ≠ s) :
    isSet t (.valued s value :: ws) = isSet t ws := by
  simp [isSet, switch?, ne]

/-- What is said about a scan does not depend on where the document goes. -/
theorem ofWords?_cons_output :
    ScanArguments.ofWords? (.valued .output value :: ws) = ScanArguments.ofWords? ws := by
  have operands : ∀ read? : String → Option Path,
      operands? read? (.valued .output value :: ws) = operands? read? ws := fun _ => rfl
  unfold ScanArguments.ofWords?
  simp only [operands, values?_cons_valued, single?_cons_valued, isSet_cons_valued, ne_eq,
    reduceCtorEq, not_false_eq_true]

/-- One more switch that may be set once is well counted if it was not set before. -/
theorem wellCounted_cons_output (h : Switch.output ∉ ws.filterMap switch?)
    (counted : wellCounted ws = true) : wellCounted (.valued .output value :: ws) = true := by
  rw [wellCounted, List.all_eq_true] at counted ⊢
  intro t ht
  have before := counted t ht
  have set : (Word.valued .output value :: ws).filterMap switch? =
      .output :: ws.filterMap switch? := rfl
  rw [set]
  by_cases eq : t = .output
  · subst eq
    simp [List.count_eq_zero_of_not_mem h]
  · rwa [List.count_cons_of_ne (Ne.symm eq)]

end Words

/-! ## Commands -/

namespace Command

/-- Three command lines count, print and write what one scan finds. -/
structure AskAlike (config : Option Path) (a : ScanArguments) (p : Path)
    (counting printing writing : List String) : Prop where
  counts : parse? counting = some ⟨config, .index a⟩
  prints : parse? printing = some ⟨config, .document a none⟩
  writes : parse? writing = some ⟨config, .document a (some p)⟩

variable {config : Option Path} {a : ScanArguments} {args : List String} {output : String}
  {verb : Verb} {word : String}

/-- A command line that starts with its verb. -/
theorem parse?_verb (operand : Word.isOperand word.toList = true)
    (named : Verb.ofString? word = some verb) :
    parse? (word :: args) = (Word.ofArguments? verb none args).bind fun ws =>
      ofLine? ⟨[], verb, ws⟩ := by
  rw [parse?, CommandLine.cut?, CommandLine.cutFrom?, if_pos operand, named]
  show ((Word.ofArguments? verb none args).bind fun ws => some ⟨[], verb, ws⟩).bind ofLine? = _
  rw [Option.bind_assoc]
  rfl

/-- A command line in pieces, all of which stand behind the verb. -/
theorem ofLine?_after {ws : List Word} {c : Command} :
    ofLine? ⟨[], verb, ws⟩ = some c ↔ Words.wellCounted ws = true ∧
      Words.single? .config Argument.path? ws = some c.config ∧
      Action.ofWords? verb ws = some c.action := by
  have empty : Words.wellCounted [] = true := by decide
  have outer : Words.single? .config Argument.path? [] = some none := rfl
  rw [ofLine?]
  simp only [empty, Bool.true_and, outer]
  by_cases counted : Words.wellCounted ws = true
  · rw [if_pos counted]
    cases Words.single? .config Argument.path? ws with
    | none => simp
    | some inner =>
        cases Action.ofWords? verb ws with
        | none => simp
        | some action =>
            obtain ⟨config, action'⟩ := c
            simp [counted]
  · rw [if_neg counted]
    simp [counted]

/-- **A command line that counts can be turned into one that prints and into one that writes.** -/
theorem askAlike_of_parse? (h : parse? ("index" :: args) = some ⟨config, .index a⟩)
    (named : output ≠ "") :
    AskAlike config a (Path.ofString output) ("index" :: args) ("export" :: args)
      ("export" :: ("--output=" ++ output) :: args) := by
  have index : parse? ("index" :: args) = _ := parse?_verb (by cbv) rfl
  have document : ∀ args, parse? ("export" :: args) = _ := fun args => parse?_verb (by cbv) rfl
  have h' := h
  rw [index] at h
  obtain ⟨ws, read, line⟩ := Option.bind_eq_some_iff.1 h
  obtain ⟨counted, configured, action⟩ := ofLine?_after.1 line
  obtain ⟨a', scan, eq⟩ := Option.bind_eq_some_iff.1 action
  cases eq
  have closed : ∀ s : Switch, none = some s → s.fits (some .index) = true := fun _ => nofun
  have understood := Word.understood_ofArguments? closed read
  have unset : Switch.output ∉ ws.filterMap Words.switch? := by
    intro mem
    cases understood _ mem
  -- the same words after the other verb, alone and behind one that names a file
  have read' : Word.ofArguments? .document none args = some ws :=
    Word.ofArguments?_mono (fun s => Switch.fits_document) read
  have nowhere : Words.single? .output Argument.path? ws = some none := by
    rw [Words.single?, Words.values?, Words.filterMap_valueFor?_eq_nil unset]
    rfl
  refine ⟨h', ?_, ?_⟩
  · rw [document, read', Option.bind_some, ofLine?_after]
    refine ⟨counted, configured, ?_⟩
    show (ScanArguments.ofWords? ws).bind _ = _
    rw [scan, Option.bind_some, nowhere]
    rfl
  · have path : Argument.path? output = some (Path.ofString output) := if_neg named
    have somewhere : Words.single? .output Argument.path? (.valued .output output :: ws) =
        some (some (Path.ofString output)) := by
      rw [Words.single?, Words.values?, List.filterMap_cons, Words.valueFor?, if_pos rfl]
      simp only [Words.filterMap_valueFor?_eq_nil unset, List.mapM_cons, path]
      rfl
    have option : "--output=" = "--" ++ Switch.output.long ++ "=" := by simp [Switch.long]
    rw [option, document, Word.ofArguments?_valued rfl rfl read', Option.bind_some,
      ofLine?_after]
    refine ⟨Words.wellCounted_cons_output unset counted, ?_, ?_⟩
    · rwa [Words.single?_cons_valued (by decide)]
    · show (ScanArguments.ofWords? (.valued .output output :: ws)).bind _ = _
      rw [Words.ofWords?_cons_output, scan, Option.bind_some, somewhere]
      rfl

end Command

end IncludeAtlas
