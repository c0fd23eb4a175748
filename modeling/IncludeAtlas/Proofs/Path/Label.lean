import IncludeAtlas.Path.Label
import IncludeAtlas.Proofs.Path.Normal
import IncludeAtlas.Proofs.Text.Utf8

/-!
# Groups and labels of spelled paths

What a graph shows of a path, read off the spelling of the path.  The group is made of the last
directories, however many are asked for and however many there are; the label is the name that
comes after them.  Together they spell the path, if it is one that ends in a name.

## Main Definitions

* `Path.shown`: the group and the label of a path, as one text
* `Path.Shows`: what groups and labels say of a path

## Main Results

* `Path.directories_eq`: the directories are what a path means, up to the last component
* `Path.map_bytes_directories`: they are spelled as the pieces of the path that have a meaning
* `Path.lossy_intercalate`: pieces between slashes are read one by one
* `Path.exists_group`: a group is the last directories
* `Path.label_of_name`, `Path.label_of_no_name`: what a label is
* `Path.shown_eq`: group and label are the text of the normal form
* `Path.shows`: all of this, for every path

## What is load-bearing

An ill-formed stretch of bytes ends at the next slash.  So it is all the same whether the
directories are turned into text before they are joined or after.
-/

namespace IncludeAtlas.Path

variable {p q : Path} {cs : List Component} {m : Name} {n : Nat} {full : Bool}

/-! ## Directories -/

/-- **The directories are what a path means**, without its last component and the root. -/
theorem directories_eq (p : Path) : p.directories = p.components.dropLast.filter (· ≠ .root) := by
  unfold directories
  rcases p.parent?_cases with ⟨top, nothing⟩ | parent
  · rw [top, nothing]
    rfl
  · have proper := p.proper_components.of_isPrefix (List.dropLast_prefix _)
    rw [parent]
    exact congrArg _ (components_ofComponents proper)

/-- Without the root a path loses its last component where it does with the root. -/
theorem Proper.filter_dropLast (h : Proper cs) :
    cs.dropLast.filter (· ≠ .root) = (cs.filter (· ≠ .root)).dropLast := by
  cases h with
  | nil => rfl
  | @cons c cs head tail =>
      have front : ∀ d ∈ cs.dropLast, d.Ordinary := fun d mem => tail d (cs.dropLast_subset mem)
      by_cases more : cs = []
      · subst more
        by_cases root : c = .root <;> simp [root]
      · rw [List.dropLast_cons_of_ne_nil more]
        by_cases root : c = .root
        · rw [List.filter_cons_of_neg (by simp [root]), List.filter_cons_of_neg (by simp [root]),
            filter_ordinary front, filter_ordinary tail]
        · rw [List.filter_cons_of_pos (by simp [root]), List.filter_cons_of_pos (by simp [root]),
            filter_ordinary front, filter_ordinary tail, List.dropLast_cons_of_ne_nil more]

/-- **The directories are spelled as the pieces of the path that have a meaning**, up to the last
one. -/
theorem map_bytes_directories (p : Path) :
    p.directories.map Component.bytes = p.steps.dropLast := by
  rw [directories_eq, p.proper_components.filter_dropLast, List.map_dropLast, map_bytes_components]

/-- What a path that ends in a name has a meaning of is its directories and the name. -/
theorem steps_of_name (named : p.components.getLast? = some (.name m)) :
    p.steps = p.directories.map Component.bytes ++ [m] := by
  obtain ⟨front, split⟩ := List.getLast?_eq_some_iff.1 named
  rw [← map_bytes_components, directories_eq, split, List.dropLast_concat, List.filter_append,
    List.map_append]
  rfl

/-! ## Groups -/

/-- **Pieces between slashes are read one by one.** -/
theorem lossy_intercalate (ss : List Bytes) :
    Utf8.lossy ([slash].intercalate ss) = "/".intercalate (ss.map Utf8.lossy) := by
  induction ss with
  | nil => rfl
  | cons s ss ih =>
      cases ss with
      | nil => simp
      | cons t ss =>
          have ascii : slash < 0x80 := by decide
          have text : String.singleton (Char.ofNat slash.toNat) = "/" := by decide
          rw [List.intercalate_cons_cons, List.append_assoc, List.singleton_append,
            Utf8.lossy_append_ascii ascii, ih, text, List.map_cons, List.map_cons, List.map_cons,
            String.intercalate_cons_cons]

/-- **A group is the last directories**, as many as are asked for or there are. -/
theorem exists_group (p : Path) (n : Nat) : ∃ above last, p.directories = above ++ last ∧
    last.length = min n p.directories.length ∧
    p.group n = "/".intercalate (last.map fun c => Utf8.lossy c.bytes) := by
  refine ⟨p.directories.take (p.directories.length - n),
    p.directories.drop (p.directories.length - n), (List.take_append_drop _ _).symm, ?_, ?_⟩
  · rw [List.length_drop]
    omega
  · unfold group
    simp only [List.length_map, List.map_drop]

/-- A group may be joined before it is turned into text. -/
theorem intercalate_lossy_bytes (cs : List Component) :
    "/".intercalate (cs.map fun c => Utf8.lossy c.bytes) =
      Utf8.lossy ([slash].intercalate (cs.map Component.bytes)) := by
  rw [lossy_intercalate, List.map_map]
  rfl

/-- If enough are asked for, the group is all directories. -/
theorem group_of_le (all : p.directories.length ≤ n) :
    p.group n = "/".intercalate (p.directories.map fun c => Utf8.lossy c.bytes) := by
  unfold group
  simp only [List.length_map, Nat.sub_eq_zero_of_le all, List.drop_zero]

/-- There is no group only if there are no directories. -/
theorem group_eq_empty_iff (all : p.directories.length ≤ n) :
    p.group n = "" ↔ p.directories = [] := by
  rw [group_of_le all, intercalate_lossy_bytes, Utf8.lossy_eq_empty_iff]
  cases directories : p.directories with
  | nil => simp
  | cons d ds =>
      have first : d.bytes ≠ [] := by
        refine ne_nil_of_mem_steps (p.steps.dropLast_subset ?_)
        rw [← map_bytes_directories, directories]
        exact List.mem_cons_self
      cases ds <;> simp [first]

/-! ## Labels -/

/-- The last name is a matter of what a path means. -/
theorem fileName?_congr (same : p.Same q) : p.fileName? = q.fileName? := by
  rw [fileName?, fileName?, same]

/-- A label that is the last name of a path does not tell the spelling. -/
theorem label_congr (same : p.Same q) (named : p.fileName? ≠ none) :
    p.label false = q.label false := by
  obtain ⟨n, hn⟩ := Option.ne_none_iff_exists'.1 named
  rw [label, label, ← fileName?_congr same, hn]
  rfl

/-- All other labels are the whole spelling. -/
theorem label_eq_display (whole : full = true ∨ p.fileName? = none) : p.label full = p.display := by
  rw [label]
  split
  · rfl
  · rename_i short
    rw [whole.resolve_left short]

/-- The label of a path that ends in a name is the name. -/
theorem label_of_name (named : p.components.getLast? = some (.name m)) :
    p.label false = Utf8.lossy m := by
  have name : p.fileName? = some m := by
    unfold fileName?
    rw [named]
  unfold label
  rw [if_neg Bool.false_ne_true, name]

/-- The label of any other path is all of it. -/
theorem label_of_no_name (unnamed : ∀ m, p.components.getLast? ≠ some (.name m)) :
    p.label false = Utf8.lossy p.bytes := by
  refine label_eq_display (.inr ?_)
  unfold fileName?
  split
  · rename_i m last
    exact absurd last (unnamed m)
  · rfl

/-! ## Groups and labels together -/

/-- The group of a path and its label, with a slash between them if there is a group. -/
def shown (p : Path) (n : Nat) : String :=
  p.group n ++ (if p.group n = "" then "" else "/") ++ p.label false

/-- **Group and label are the text of the normal form**, up to the slash that this may start
with. -/
theorem shown_eq (named : p.components.getLast? = some (.name m))
    (all : p.directories.length ≤ n) :
    p.shown n = Utf8.lossy ([slash].intercalate p.steps) := by
  have steps : p.steps.map Utf8.lossy =
      (p.directories.map fun c => Utf8.lossy c.bytes) ++ [Utf8.lossy m] := by
    rw [steps_of_name named, List.map_append, List.map_map]
    rfl
  rw [lossy_intercalate, steps, shown, label_of_name named]
  by_cases none : p.directories = []
  · rw [if_pos ((group_eq_empty_iff all).2 none), (group_eq_empty_iff all).2 none, none]
    simp
  · rw [if_neg (mt (group_eq_empty_iff all).1 none), group_of_le all,
      String.intercalate_append_of_ne_nil (by simpa using none) (List.cons_ne_nil _ _),
      String.intercalate_singleton]

/-! ## Paths that are text -/

/-- **Text between slashes is text**, as bytes too: a slash is no part of another character. -/
theorem exists_segments_ofString (s : String) :
    ∃ ts : List String, (ofString s).segments = ts.map Utf8.encode := by
  have cut : ∀ cs : List Char, ∃ (t : String) (ts : List String),
      Cut.pieces slash (cs.flatMap Utf8.encodeChar) = (t :: ts).map Utf8.encode := by
    intro cs
    induction cs with
    | nil => exact ⟨"", [], rfl⟩
    | cons c cs ih =>
        obtain ⟨t, ts, rest⟩ := ih
        by_cases here : c = '/'
        · subst here
          refine ⟨"", t :: ts, ?_⟩
          have bytes : Utf8.encodeChar '/' = [slash] := by decide
          rw [List.flatMap_cons, bytes, List.singleton_append, List.map_cons, ← rest]
          exact Cut.pieces_append List.not_mem_nil _
        · have other : slash ∉ Utf8.encodeChar c := by
            refine Utf8.notMem_encodeChar (by decide) fun eq => here ?_
            rw [← Char.ofNat_toNat c, eq]
            rfl
          refine ⟨String.singleton c ++ t, ts, ?_⟩
          rw [List.map_cons] at rest
          rw [List.flatMap_cons, Cut.pieces_prepend other rest, List.map_cons, Utf8.encode_append]
          simp [Utf8.encode]
  obtain ⟨t, ts, eq⟩ := cut s.toList
  exact ⟨t :: ts, eq⟩

theorem encode_slash : Utf8.encode "/" = [slash] := by
  decide

theorem encode_intercalate (ts : List String) :
    Utf8.encode ("/".intercalate ts) = [slash].intercalate (ts.map Utf8.encode) := by
  induction ts with
  | nil => rfl
  | cons t ts ih =>
      cases ts with
      | nil => simp
      | cons u ts =>
          rw [String.intercalate_cons_cons, Utf8.encode_append, Utf8.encode_append, encode_slash,
            ih, List.map_cons, List.map_cons, List.map_cons, List.intercalate_cons_cons]

/-- Nothing is lost of a path that is text. -/
theorem encode_lossy_steps (s : String) :
    Utf8.encode (Utf8.lossy ([slash].intercalate (ofString s).steps)) =
      [slash].intercalate (ofString s).steps := by
  have isText : ∀ q ∈ (ofString s).steps, ∃ t, q = Utf8.encode t := by
    intro q mem
    unfold steps at mem
    rcases List.mem_append.1 mem with lead | step
    · have spelled : dot = Utf8.encode "." := by decide
      split_ifs at lead
      · exact ⟨".", (List.mem_singleton.1 lead).trans spelled⟩
      · cases lead
    · obtain ⟨ts, cut⟩ := exists_segments_ofString s
      have piece := (List.mem_filter.1 step).1
      rw [cut] at piece
      obtain ⟨t, -, rfl⟩ := List.mem_map.1 piece
      exact ⟨t, rfl⟩
  have each : ∀ q ∈ (ofString s).steps, (Utf8.encode ∘ Utf8.lossy) q = q := by
    intro q mem
    obtain ⟨t, rfl⟩ := isText q mem
    rw [Function.comp_apply, Utf8.lossy_encode]
  rw [lossy_intercalate, encode_intercalate, List.map_map, List.map_congr_left each, List.map_id']

/-- **A path that is text and ends in a name is spelled by its group and its label**, behind the
slash that it may start with. -/
theorem normal_ofString {s : String} (named : (ofString s).components.getLast? = some (.name m))
    (all : (ofString s).directories.length ≤ n) :
    (ofString s).normal =
      ofString ((if (ofString s).isAbsolute then "/" else "") ++ (ofString s).shown n) := by
  have spelled : Utf8.encode ((ofString s).shown n) = [slash].intercalate (ofString s).steps := by
    rw [shown_eq named all, encode_lossy_steps]
  have front : (if (ofString s).isAbsolute then [slash] else []) =
      Utf8.encode (if (ofString s).isAbsolute then "/" else "") := by
    split_ifs
    · exact encode_slash.symm
    · rfl
  unfold normal
  rw [← spelled, front, ← Utf8.encode_append]
  rfl

/-! ## Every path -/

/-- What the groups and the label of a path say of it. -/
structure Shows (p : Path) : Prop where
  /-- The directories are the components up to the last one, without the root. -/
  directories : p.directories = p.components.dropLast.filter (· ≠ .root)
  /-- They are spelled as what stands between the slashes, without what is empty and without dots
  other than one at the start. -/
  spelled : p.directories.map Component.bytes = p.steps.dropLast
  /-- A group is the last directories, as many as are asked for or there are.  They may be turned
  into text one by one or together. -/
  group : ∀ n, ∃ above last, p.directories = above ++ last ∧
    last.length = min n p.directories.length ∧
    p.group n = "/".intercalate (last.map fun c => Utf8.lossy c.bytes) ∧
    p.group n = Utf8.lossy ([slash].intercalate (last.map Component.bytes))
  /-- The label is the last component, if that is a name. -/
  named : ∀ m, p.components.getLast? = some (.name m) → p.label false = Utf8.lossy m
  /-- Otherwise it is the whole path. -/
  unnamed : (∀ m, p.components.getLast? ≠ some (.name m)) → p.label false = Utf8.lossy p.bytes
  /-- The normal form of the path is one of its spellings, and the same for all of them. -/
  normal : p.normal.Same p ∧ ∀ q : Path, q.Same p → q.normal = p.normal
  /-- A group of all directories and the label are the text of the normal form without its leading
  slash, if the path ends in a name. -/
  whole : ∀ m, p.components.getLast? = some (.name m) → ∀ n, p.directories.length ≤ n →
    ∃ rest, p.normal = ⟨(if p.isAbsolute then [slash] else []) ++ rest⟩ ∧
      p.shown n = Utf8.lossy rest
  /-- If the path is text, nothing is lost. -/
  text : ∀ s, p = .ofString s → ∀ m, p.components.getLast? = some (.name m) →
    ∀ n, p.directories.length ≤ n →
      p.normal = .ofString ((if p.isAbsolute then "/" else "") ++ p.shown n)

/-- **What a graph shows of a path** is read off its spelling, whatever bytes it is made of. -/
theorem shows (p : Path) : p.Shows where
  directories := p.directories_eq
  spelled := p.map_bytes_directories
  group := by
    intro n
    obtain ⟨above, last, split, count, text⟩ := p.exists_group n
    exact ⟨above, last, split, count, text, text.trans (intercalate_lossy_bytes last)⟩
  named := fun _ => label_of_name
  unnamed := label_of_no_name
  normal := ⟨p.same_normal, fun _ => normal_congr⟩
  whole := fun _ named _ all => ⟨_, rfl, shown_eq named all⟩
  text := by
    rintro s rfl m named n all
    exact normal_ofString named all

/-- A path with slashes and dots that have no meaning and a character beyond ASCII.  As many
directories are asked for as can be. -/
theorem shows_winding :
    (ofString ".//proj/./../src///é.h/").components.getLast? =
      some (.name (Utf8.encode "é.h")) ∧
    (ofString ".//proj/./../src///é.h/").directories.length ≤ UInt64.size - 1 ∧
    (ofString ".//proj/./../src///é.h/").group (UInt64.size - 1) = "./proj/../src" ∧
    (ofString ".//proj/./../src///é.h/").label false = "é.h" ∧
    (ofString ".//proj/./../src///é.h/").normal = .ofString "./proj/../src/é.h" := by
  have named : (ofString ".//proj/./../src///é.h/").components.getLast? =
      some (.name (Utf8.encode "é.h")) := by decide
  have all : (ofString ".//proj/./../src///é.h/").directories.length ≤ UInt64.size - 1 := by decide
  have group : (ofString ".//proj/./../src///é.h/").group (UInt64.size - 1) = "./proj/../src" := by
    decide
  have label : (ofString ".//proj/./../src///é.h/").label false = "é.h" := by
    rw [(shows _).named _ named, Utf8.lossy_encode]
  have shown : (ofString ".//proj/./../src///é.h/").shown (UInt64.size - 1) =
      "./proj/../src/é.h" := by
    unfold shown
    rw [group, label]
    decide
  have relative : (ofString ".//proj/./../src///é.h/").isAbsolute = false := by decide
  have normal := (shows _).text _ rfl _ named _ all
  rw [shown, relative] at normal
  exact ⟨named, all, group, label, normal⟩

end IncludeAtlas.Path
