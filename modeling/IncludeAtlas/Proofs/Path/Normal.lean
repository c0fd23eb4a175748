import IncludeAtlas.Proofs.FileTree.Spelling

/-!
# Normal forms of paths

What a path means can be spelled in a plainest way: the root, if it starts there, and then what
its spelling has between slashes, without the pieces that have no meaning.  Every spelling of a
path has the same normal form, and the normal form is one of them.

## Main Definitions

* `Component.Ordinary`: a component that may stand anywhere in a path
* `Path.Proper`: the lists of components that paths mean
* `Path.steps`: the pieces of a spelling that have a meaning
* `Path.normal`: the normal form

## Main Results

* `Path.bytes_join`: what is added to a path stands behind one slash
* `Path.proper_components`: what a path means is proper
* `Path.ofComponents_root`, `Path.ofComponents_cons`: how proper components are spelled plainest
* `Path.components_ofComponents`: and that they are what is meant by that
* `Path.map_bytes_components`: the meaning of a path, read off its spelling
* `Path.ofComponents_components`: the plainest spelling of a path is its normal form

## What is load-bearing

The root and a dot mean something at the start of a path only.  So what follows the first
component is cut back at the slashes that it was joined by.
-/

namespace IncludeAtlas

/-! ## Joining -/

namespace Path

variable {d token : Path}

/-- Below the empty path everything is where it is. -/
theorem nil_join (p : Path) : join ⟨[]⟩ p = p := by
  unfold join
  split
  · rfl
  · rw [if_pos (.inl rfl)]
    rfl

theorem bytes_ne_nil (absolute : d.isAbsolute = true) : d.bytes ≠ [] := by
  intro empty
  rw [isAbsolute, empty] at absolute
  cases absolute

/-- A path without a slash is relative. -/
theorem isAbsolute_of_notMem {s : Bytes} (h : slash ∉ s) : isAbsolute ⟨s⟩ = false :=
  beq_eq_false_iff_ne.2 fun head => h (List.mem_of_head? head)

/-- A relative token is added behind a slash, which the path may end in already. -/
theorem bytes_join (nonempty : d.bytes ≠ []) (relative : token.isAbsolute = false) :
    d.bytes.getLast? = some slash ∧ (d.join token).bytes = d.bytes ++ token.bytes ∨
      d.bytes.getLast? ≠ some slash ∧ (d.join token).bytes = d.bytes ++ slash :: token.bytes := by
  unfold join
  rw [relative, if_neg Bool.false_ne_true]
  by_cases ends : d.bytes.getLast? = some slash
  · rw [if_pos (.inr ends)]
    exact .inl ⟨ends, rfl⟩
  · rw [if_neg (not_or.2 ⟨nonempty, ends⟩)]
    exact .inr ⟨ends, rfl⟩

/-- Below a path everything relative starts where the path does. -/
theorem isAbsolute_join_eq (nonempty : d.bytes ≠ []) (relative : token.isAbsolute = false) :
    (d.join token).isAbsolute = d.isAbsolute := by
  unfold isAbsolute at relative ⊢
  rcases bytes_join nonempty relative with ⟨-, spelled⟩ | ⟨-, spelled⟩
  · rw [spelled, List.head?_append_of_ne_nil _ nonempty]
  · rw [spelled, List.head?_append_of_ne_nil _ nonempty]

theorem isAbsolute_join (absolute : d.isAbsolute = true) (relative : token.isAbsolute = false) :
    (d.join token).isAbsolute = true :=
  (isAbsolute_join_eq (bytes_ne_nil absolute) relative).trans absolute

theorem mem_bytes_join_iff {b : UInt8} (other : b ≠ slash) (nonempty : d.bytes ≠ [])
    (relative : token.isAbsolute = false) :
    b ∈ (d.join token).bytes ↔ b ∈ d.bytes ∨ b ∈ token.bytes := by
  rcases bytes_join nonempty relative with ⟨-, spelled⟩ | ⟨-, spelled⟩
  · rw [spelled, List.mem_append]
  · rw [spelled, List.mem_append, List.mem_cons, or_iff_right other]

/-- The pieces of the token come after those of the path, except that the path loses an empty piece
at its end. -/
theorem segments_join (nonempty : d.bytes ≠ []) (relative : token.isAbsolute = false) :
    ∃ front, (d.join token).segments = front ++ token.segments ∧
      (d.segments = front ∨ d.segments = front ++ [[]]) := by
  unfold segments
  rcases bytes_join nonempty relative with ⟨ends, spelled⟩ | ⟨-, spelled⟩
  · obtain ⟨bytes, before⟩ := List.getLast?_eq_some_iff.1 ends
    refine ⟨Cut.pieces slash bytes, ?_, .inr ?_⟩
    · rw [spelled, before, List.append_assoc, List.singleton_append, Cut.pieces_append_separator]
    · rw [before, Cut.pieces_append_separator]
      rfl
  · refine ⟨Cut.pieces slash d.bytes, ?_, .inl rfl⟩
    rw [spelled, Cut.pieces_append_separator]

/-- The piece that the path loses has no meaning. -/
theorem exists_segments_join (nonempty : d.bytes ≠ []) (relative : token.isAbsolute = false) :
    ∃ front, (d.join token).segments = front ++ token.segments ∧
      front.filterMap componentOf? = d.segments.filterMap componentOf? := by
  obtain ⟨front, joined, whole | ended⟩ := segments_join nonempty relative
  · exact ⟨front, joined, by rw [whole]⟩
  · refine ⟨front, joined, ?_⟩
    rw [ended, List.filterMap_append]
    exact (List.append_nil _).symm

end Path

/-! ## What paths mean -/

/-- The component may stand anywhere in a path: what it is spelled as stands for it there. -/
structure Component.Ordinary (c : Component) : Prop where
  spelled : Path.componentOf? c.bytes = some c
  piece : slash ∉ c.bytes

/-- The name of an entry may stand anywhere in a path. -/
theorem Component.ordinary_name {n : Name} (h : IsName n) : (Component.name n).Ordinary where
  spelled := Path.componentOf?_eq_name_iff.2 ⟨h.1, h.2.1, h.2.2.1, rfl⟩
  piece := h.2.2.2.1

theorem Component.Ordinary.ne_root {c : Component} (h : c.Ordinary) : c ≠ .root := by
  rintro rfl
  exact Path.componentOf?_ne_root h.spelled

theorem Component.Ordinary.bytes_ne_nil {c : Component} (h : c.Ordinary) : c.bytes ≠ [] := by
  intro empty
  have spelled := h.spelled
  rw [empty] at spelled
  cases spelled

/-- What ends in an ordinary component does not end in a slash. -/
theorem Component.Ordinary.getLast?_append {c : Component} (h : c.Ordinary) (s : Bytes) :
    (s ++ c.bytes).getLast? ≠ some slash := by
  rw [List.getLast?_append_of_ne_nil _ h.bytes_ne_nil]
  exact fun eq => h.piece (List.mem_of_getLast? eq)

/-- The components that a path may mean: the root and a dot stand first if at all. -/
inductive Path.Proper : List Component → Prop
  | nil : Proper []
  | cons {c : Component} {cs : List Component} :
      c = .root ∨ c = .current ∨ c.Ordinary → (∀ d ∈ cs, d.Ordinary) → Proper (c :: cs)

namespace Path

variable {p : Path} {c : Component} {cs : List Component} {s : Bytes}

theorem bytes_of_componentOf? (h : componentOf? s = some c) : c.bytes = s := by
  rw [componentOf?] at h
  split_ifs at h with blank up
  · cases h
    exact up.symm
  · cases h
    rfl

/-- A piece that stands for something is neither empty nor a dot. -/
theorem meaning_of_componentOf? (h : componentOf? s = some c) : s ≠ [] ∧ s ≠ dot := by
  refine not_or.1 fun blank => ?_
  cases (componentOf?_eq_none_iff.2 blank).symm.trans h

theorem ordinary_of_componentOf? (piece : slash ∉ s) (h : componentOf? s = some c) :
    c.Ordinary := by
  obtain rfl := bytes_of_componentOf? h
  exact ⟨h, piece⟩

/-- **What a path means is proper.** -/
theorem proper_components (p : Path) : Proper p.components := by
  cases cut : p.segments with
  | nil => exact absurd cut (Cut.pieces_ne_nil slash p.bytes)
  | cons first rest =>
      have piece : ∀ s ∈ first :: rest, slash ∉ s := by
        rw [← cut]
        exact fun s mem => Cut.notMem_of_mem_pieces mem
      have later : ∀ d ∈ rest.filterMap componentOf?, d.Ordinary := by
        intro d mem
        obtain ⟨s, hs, stands⟩ := List.mem_filterMap.1 mem
        exact ordinary_of_componentOf? (piece s (List.mem_cons_of_mem first hs)) stands
      rw [components_of_segments cut]
      cases leads : p.leading? first with
      | none =>
          rw [Option.toList_none, List.nil_append]
          cases names : rest.filterMap componentOf? with
          | nil => exact .nil
          | cons d ds =>
              rw [names] at later
              obtain ⟨head, tail⟩ := List.forall_mem_cons.1 later
              exact .cons (.inr (.inr head)) tail
      | some c =>
          refine .cons ?_ later
          rw [leading?] at leads
          split_ifs at leads with empty absolute isDot
          · exact .inl (Option.some.inj leads).symm
          · exact .inr (.inl (Option.some.inj leads).symm)
          · exact .inr (.inr (ordinary_of_componentOf? (piece first List.mem_cons_self) leads))

theorem Proper.of_isPrefix {front : List Component} (h : Proper cs) (here : front <+: cs) :
    Proper front := by
  cases front with
  | nil => exact .nil
  | cons c front =>
      obtain ⟨back, rfl⟩ := here
      cases h with
      | cons head tail => exact .cons head fun d mem => tail d (List.mem_append_left back mem)

/-- The root is the last component only if it is the only one. -/
theorem Proper.eq_of_getLast? (h : Proper cs) (last : cs.getLast? = some .root) :
    cs = [.root] := by
  cases h with
  | nil => cases last
  | @cons c cs head tail =>
      by_cases more : cs = []
      · subst more
        rw [List.getLast?_singleton] at last
        rw [Option.some.inj last]
      · rw [List.getLast?_cons_of_ne_nil more] at last
        exact absurd rfl (tail _ (List.mem_of_getLast? last)).ne_root

/-! ## The plainest spelling -/

/-- What does not end in a slash goes on with one. -/
theorem join_ordinary (nonempty : p.bytes ≠ []) (ends : p.bytes.getLast? ≠ some slash)
    (h : c.Ordinary) : p.join ⟨c.bytes⟩ = ⟨p.bytes ++ slash :: c.bytes⟩ := by
  rcases bytes_join nonempty (isAbsolute_of_notMem h.piece) with ⟨slashed, -⟩ | ⟨-, spelled⟩
  · exact absurd slashed ends
  · exact congrArg Path.mk spelled

/-- Ordinary components are joined on by slashes, since none of them ends in one. -/
theorem foldl_join (nonempty : p.bytes ≠ []) (ends : p.bytes.getLast? ≠ some slash)
    (h : ∀ c ∈ cs, c.Ordinary) :
    cs.foldl (fun p c => p.join ⟨c.bytes⟩) p =
      ⟨[slash].intercalate (p.bytes :: cs.map Component.bytes)⟩ := by
  induction cs generalizing p with
  | nil => rw [List.map_nil, List.intercalate_singleton]; rfl
  | cons c cs ih =>
      obtain ⟨first, rest⟩ := List.forall_mem_cons.1 h
      have last : (p.bytes ++ slash :: c.bytes).getLast? ≠ some slash := by
        rw [List.append_cons]
        exact first.getLast?_append _
      rw [List.foldl_cons, join_ordinary nonempty ends first, ih (by simp) last rest,
        List.map_cons]
      cases cs <;> simp

/-- How components are spelled that come after the root. -/
theorem ofComponents_root (h : ∀ c ∈ cs, c.Ordinary) :
    ofComponents (.root :: cs) = ⟨slash :: [slash].intercalate (cs.map Component.bytes)⟩ := by
  cases cs with
  | nil => rfl
  | cons c cs =>
      obtain ⟨first, rest⟩ := List.forall_mem_cons.1 h
      -- the root ends in the slash that the first component stands behind
      have start : (⟨[slash]⟩ : Path).join ⟨c.bytes⟩ = ⟨slash :: c.bytes⟩ := by
        rcases bytes_join (List.cons_ne_nil slash []) (isAbsolute_of_notMem first.piece) with
          ⟨-, spelled⟩ | ⟨ends, -⟩
        · exact congrArg Path.mk spelled
        · exact absurd rfl ends
      have ends : (slash :: c.bytes).getLast? ≠ some slash := first.getLast?_append [slash]
      show (c :: cs).foldl (fun (p : Path) c => p.join ⟨c.bytes⟩) ⟨[slash]⟩ = _
      rw [List.foldl_cons, start, foldl_join (List.cons_ne_nil _ _) ends rest, List.map_cons]
      cases cs <;> simp

/-- How components are spelled that do not start from the root. -/
theorem ofComponents_cons (head : c = .current ∨ c.Ordinary) (tail : ∀ d ∈ cs, d.Ordinary) :
    ofComponents (c :: cs) = ⟨[slash].intercalate ((c :: cs).map Component.bytes)⟩ := by
  have plain : c.bytes ≠ [] ∧ c.bytes.getLast? ≠ some slash := by
    rcases head with rfl | ordinary
    · decide
    · exact ⟨ordinary.bytes_ne_nil, ordinary.getLast?_append []⟩
  show (c :: cs).foldl (fun (p : Path) c => p.join ⟨c.bytes⟩) ⟨[]⟩ = _
  rw [List.foldl_cons, nil_join, List.map_cons]
  exact foldl_join plain.1 plain.2 tail

/-- What ordinary components are spelled as stands for them. -/
theorem filterMap_bytes (h : ∀ c ∈ cs, c.Ordinary) :
    (cs.map Component.bytes).filterMap componentOf? = cs := by
  rw [List.filterMap_map]
  conv_rhs => rw [← List.filterMap_some (l := cs)]
  exact List.filterMap_congr fun c mem => (h c mem).spelled

/-- Ordinary components are read back from between slashes. -/
theorem filterMap_pieces (h : ∀ c ∈ cs, c.Ordinary) :
    (Cut.pieces slash ([slash].intercalate (cs.map Component.bytes))).filterMap componentOf? =
      cs := by
  cases cs with
  | nil => rfl
  | cons c cs =>
      have pieces : ∀ s ∈ (c :: cs).map Component.bytes, slash ∉ s :=
        List.forall_mem_map.2 fun d mem => (h d mem).piece
      rw [Cut.pieces_intercalate (by simp) pieces, filterMap_bytes h]

/-- **Proper components are what their plainest spelling means.** -/
theorem components_ofComponents (h : Proper cs) : (ofComponents cs).components = cs := by
  cases h with
  | nil => rfl
  | @cons c cs head tail =>
      rcases head with rfl | head
      · have cut : (ofComponents (.root :: cs)).segments =
            [] :: Cut.pieces slash ([slash].intercalate (cs.map Component.bytes)) := by
          rw [ofComponents_root tail]
          exact Cut.pieces_append List.not_mem_nil _
        have absolute : (ofComponents (.root :: cs)).isAbsolute = true := by
          rw [ofComponents_root tail]
          rfl
        rw [components_of_segments cut, filterMap_pieces tail, leading?, if_pos rfl,
          if_pos absolute]
        rfl
      · have piece : slash ∉ c.bytes := by
          rcases head with rfl | ordinary
          · decide
          · exact ordinary.piece
        have cut : (ofComponents (c :: cs)).segments = c.bytes :: cs.map Component.bytes := by
          rw [ofComponents_cons head tail]
          have pieces : ∀ s ∈ (c :: cs).map Component.bytes, slash ∉ s :=
            List.forall_mem_cons.2 ⟨piece, List.forall_mem_map.2 fun d mem => (tail d mem).piece⟩
          exact Cut.pieces_intercalate (List.cons_ne_nil _ _) pieces
        rw [components_of_segments cut, filterMap_bytes tail]
        rcases head with rfl | ordinary
        · rfl
        · have leads : (ofComponents (c :: cs)).leading? c.bytes = some c := by
            have meaning := meaning_of_componentOf? ordinary.spelled
            rw [leading?, if_neg meaning.1, if_neg meaning.2, ordinary.spelled]
          rw [leads]
          rfl

/-- The directory of a path is what it means without the last component, and there is none only if
nothing is left. -/
theorem parent?_cases (p : Path) :
    (p.parent? = none ∧ p.components.dropLast = []) ∨
      p.parent? = some (ofComponents p.components.dropLast) := by
  unfold parent?
  cases last : p.components.getLast? with
  | none => exact .inl ⟨rfl, by rw [List.getLast?_eq_none_iff.1 last]; rfl⟩
  | some c =>
      cases c with
      | root => exact .inl ⟨rfl, by rw [p.proper_components.eq_of_getLast? last]; rfl⟩
      | current => exact .inr rfl
      | parent => exact .inr rfl
      | name m => exact .inr rfl

/-! ## Normal forms -/

/-- The pieces of a spelling that have a meaning: a dot at the start, and everything else but
dots and what is empty. -/
def steps (p : Path) : List Bytes :=
  (if p.segments.head? = some dot then [dot] else []) ++
    p.segments.filter fun s => s ≠ [] ∧ s ≠ dot

theorem ne_nil_of_mem_steps (h : s ∈ p.steps) : s ≠ [] := by
  unfold steps at h
  rcases List.mem_append.1 h with lead | step
  · split_ifs at lead
    · rw [List.mem_singleton.1 lead]
      exact List.cons_ne_nil _ _
    · cases lead
  · exact (of_decide_eq_true (List.mem_filter.1 step).2).1

/-- The path without the slashes and dots that have no meaning. -/
def normal (p : Path) : Path :=
  ⟨(if p.isAbsolute then [slash] else []) ++ [slash].intercalate p.steps⟩

/-- What pieces stand for is spelled as the pieces that have a meaning. -/
theorem map_bytes_filterMap (ss : List Bytes) :
    (ss.filterMap componentOf?).map Component.bytes = ss.filter fun s => s ≠ [] ∧ s ≠ dot := by
  induction ss with
  | nil => rfl
  | cons s ss ih =>
      cases stands : componentOf? s with
      | none =>
          have blank := componentOf?_eq_none_iff.1 stands
          rw [List.filterMap_cons_none stands, ih, List.filter_cons_of_neg]
          simpa [or_iff_not_imp_left] using blank
      | some c =>
          have meaning := meaning_of_componentOf? stands
          rw [List.filterMap_cons_some stands, List.map_cons, ih, bytes_of_componentOf? stands,
            List.filter_cons_of_pos (by simpa using meaning)]

/-- **The meaning of a path is read off its spelling**, apart from the root. -/
theorem map_bytes_components (p : Path) :
    (p.components.filter (· ≠ .root)).map Component.bytes = p.steps := by
  cases cut : p.segments with
  | nil => exact absurd cut (Cut.pieces_ne_nil slash p.bytes)
  | cons first rest =>
      have noRoot : (rest.filterMap componentOf?).filter (· ≠ .root) =
          rest.filterMap componentOf? := by
        rw [List.filter_eq_self]
        intro c mem
        obtain ⟨s, -, stands⟩ := List.mem_filterMap.1 mem
        refine decide_eq_true fun root => ?_
        subst root
        exact componentOf?_ne_root stands
      rw [components_of_segments cut, List.filter_append, List.map_append, noRoot,
        map_bytes_filterMap, steps, cut, List.head?_cons]
      by_cases empty : first = []
      · subst empty
        have dropped : ((p.leading? []).toList.filter (· ≠ .root)).map Component.bytes = [] := by
          rw [leading?, if_pos rfl]
          split_ifs <;> rfl
        rw [dropped, if_neg (by decide), List.filter_cons_of_neg (by simp)]
      · by_cases isDot : first = dot
        · subst isDot
          rw [leading?, if_neg empty, if_pos rfl, if_pos rfl, List.filter_cons_of_neg (by simp)]
          rfl
        · cases stands : componentOf? first with
          | none => exact absurd (componentOf?_eq_none_iff.1 stands) (not_or.2 ⟨empty, isDot⟩)
          | some c =>
              have notRoot : c ≠ .root := by
                rintro rfl
                exact componentOf?_ne_root stands
              have other : ¬ some first = some dot := fun eq => isDot (Option.some.inj eq)
              rw [leading?, if_neg empty, if_neg isDot, stands, if_neg other,
                List.filter_cons_of_pos (by simp [empty, isDot]), Option.toList_some,
                List.filter_cons_of_pos (by simpa using notRoot), List.filter_nil, List.map_cons,
                bytes_of_componentOf? stands]
              rfl

/-- A path starts with a slash exactly if its meaning starts with the root. -/
theorem isAbsolute_iff : p.isAbsolute = true ↔ p.components.head? = some .root := by
  constructor
  · intro absolute
    obtain ⟨bytes, spelled⟩ := List.head?_eq_some_iff.1 (beq_iff_eq.1 absolute)
    have cut : p.segments = [] :: Cut.pieces slash bytes := by
      rw [segments, spelled]
      exact Cut.pieces_append List.not_mem_nil bytes
    rw [components_of_segments cut, leading?, if_pos rfl, if_pos absolute]
    rfl
  · intro root
    obtain ⟨names, meaning⟩ := List.head?_eq_some_iff.1 root
    exact (segments_of_components meaning).1

/-- There is no root among ordinary components. -/
theorem filter_ordinary (h : ∀ c ∈ cs, c.Ordinary) : cs.filter (· ≠ .root) = cs :=
  List.filter_eq_self.2 fun c mem => decide_eq_true (h c mem).ne_root

/-- **The plainest spelling of what a path means is its normal form.** -/
theorem ofComponents_components (p : Path) : ofComponents p.components = p.normal := by
  have proper := p.proper_components
  have start := @isAbsolute_iff p
  unfold normal
  rw [← map_bytes_components]
  cases meaning : p.components with
  | nil =>
      rw [meaning] at start
      rw [if_neg fun absolute => nomatch start.1 absolute]
      rfl
  | cons c cs =>
      rw [meaning] at proper start
      cases proper with
      | cons head tail =>
          rcases head with rfl | head
          · rw [if_pos (start.2 rfl), ofComponents_root tail, List.filter_cons_of_neg (by simp),
              filter_ordinary tail]
            rfl
          · have notRoot : c ≠ .root := by
              rcases head with rfl | ordinary
              · exact Component.noConfusion
              · exact ordinary.ne_root
            have relative : ¬ p.isAbsolute = true := fun absolute =>
              notRoot (Option.some.inj (start.1 absolute))
            rw [if_neg relative, ofComponents_cons head tail,
              List.filter_cons_of_pos (by simpa using notRoot), filter_ordinary tail]
            rfl

/-- **The normal form of a path is one of its spellings.** -/
theorem same_normal (p : Path) : p.normal.Same p := by
  unfold Same
  rw [← ofComponents_components, components_ofComponents p.proper_components]

/-- Every spelling of a path has the same normal form. -/
theorem normal_congr {q : Path} (same : q.Same p) : q.normal = p.normal := by
  rw [← ofComponents_components, ← ofComponents_components, same]

end Path

end IncludeAtlas
