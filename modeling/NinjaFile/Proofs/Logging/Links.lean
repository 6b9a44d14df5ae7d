import Mathlib.Algebra.Group.Nat.Even
import Mathlib.Data.List.Basic
import Mathlib.Data.List.Find
import Mathlib.Data.List.TakeWhile
import Mathlib.Logic.Relation
import NinjaFile.Logging

/-!
# Names of loggers and links between them

A name sees its initial parts that end before a dot, unless one more dot is directly behind that
one: of several dots in a row every second one counts, from the last on.

A logger is linked to the longest name that it sees among those asked for, whenever that was
asked for.  Only a name that the root's own name begins with has to come first: the loggers made
before it stay where they are.
-/

namespace NinjaFile.Logging

/-- How many dots a text begins with. -/
def dots (text : List Char) : Nat := (text.takeWhile (· = '.')).length

/-- A part of a text that is not empty, in front of a dot with an even number of dots behind it. -/
def Shows (text part : List Char) : Prop :=
  part ≠ [] ∧ ∃ rest, text = part ++ '.' :: rest ∧ Even (dots rest)

/-- What a name sees. -/
def Sees (c p : String) : Prop := Shows c.toList p.toList

section

variable {text part : List Char} {d : Char}

theorem even_dots_append_pair (rest : List Char) (d : Char) :
    Even (dots (rest ++ [d, '.'])) ↔ Even (dots rest) := by
  unfold dots
  rw [List.takeWhile_append]
  split
  · next all =>
      by_cases dot : d = '.'
      · simp [dot, all, Nat.even_add, show Even 2 from ⟨1, rfl⟩]
      · simp [dot, all]
  · rfl

theorem dots_append_of_ne (other : d ≠ '.') (rest : List Char) :
    dots (rest ++ [d]) = dots rest := by
  unfold dots
  rw [List.takeWhile_append]
  split
  · next all => simp [other, all]
  · rfl

theorem Shows.length_lt (h : Shows text part) : part.length < text.length := by
  obtain ⟨-, rest, rfl, -⟩ := h
  simp

theorem Shows.pos (h : Shows text part) : 0 < part.length := List.length_pos_iff.mpr h.1

theorem not_shows_of_short (short : text.length ≤ 1) : ¬ Shows text part := fun h => by
  have := h.length_lt
  have := h.pos
  omega

theorem shows_pair_dot : Shows (text ++ [d, '.']) part ↔ part = text ++ [d] ∨ Shows text part := by
  constructor
  · rintro ⟨nonempty, rest, split, even⟩
    rcases List.eq_nil_or_concat rest with rfl | ⟨rest, e, rfl⟩
    · left
      have same : text ++ [d] ++ ['.'] = part ++ ['.'] := by simpa using split
      exact (List.append_cancel_right same).symm
    · rcases List.eq_nil_or_concat rest with rfl | ⟨rest, d', rfl⟩
      · have same : text ++ [d, '.'] = part ++ ['.', e] := by simpa using split
        obtain ⟨-, last⟩ := List.append_inj' same rfl
        simp only [List.cons.injEq, and_true] at last
        simp [dots, ← last.2] at even
      · have same : text ++ [d, '.'] = (part ++ '.' :: rest) ++ [d', e] := by simpa using split
        obtain ⟨front, last⟩ := List.append_inj' same rfl
        simp only [List.cons.injEq, and_true] at last
        obtain ⟨rfl, rfl⟩ := last
        refine .inr ⟨nonempty, rest, front, ?_⟩
        simpa [even_dots_append_pair] using even
  · rintro (rfl | ⟨nonempty, rest, rfl, even⟩)
    · exact ⟨by simp, [], by simp, by simp [dots]⟩
    · exact ⟨nonempty, rest ++ [d, '.'], by simp, (even_dots_append_pair rest d).mpr even⟩

theorem shows_of_ne (other : d ≠ '.') : Shows (text ++ [d]) part ↔ Shows text part := by
  constructor
  · rintro ⟨nonempty, rest, split, even⟩
    rcases List.eq_nil_or_concat rest with rfl | ⟨rest, e, rfl⟩
    · obtain ⟨-, last⟩ := List.append_inj' split rfl
      exact absurd (List.cons.inj last).1 other
    · have same : text ++ [d] = (part ++ '.' :: rest) ++ [e] := by simpa using split
      obtain ⟨front, last⟩ := List.append_inj' same rfl
      obtain rfl := (List.cons.inj last).1
      rw [List.concat_eq_append, dots_append_of_ne other] at even
      exact ⟨nonempty, rest, front, even⟩
  · rintro ⟨nonempty, rest, rfl, even⟩
    exact ⟨nonempty, rest ++ [d], by simp, by rwa [dots_append_of_ne other]⟩

end

theorem mem_ancestorsFrom (name : List Char) (n : Nat) (part : List Char) :
    part ∈ ancestorsFrom name n ↔ Shows (name.take n) part := by
  fun_induction ancestorsFrom name n with
  | case1 => simp [not_shows_of_short]
  | case2 =>
      have short : (name.take 1).length ≤ 1 := by
        rw [List.length_take]
        omega
      simp [not_shows_of_short short]
  | case3 i dot ih =>
      obtain ⟨inside, is⟩ := List.getElem?_eq_some_iff.mp dot
      have before : name.take (i + 1) = name.take i ++ [name[i]] :=
        List.take_succ_eq_append_getElem (by omega)
      have split : name.take (i + 2) = name.take i ++ [name[i], '.'] := by
        rw [List.take_succ_eq_append_getElem inside, is, before, List.append_assoc]
        rfl
      rw [split, shows_pair_dot, ← before, List.mem_cons]
      exact or_congr Iff.rfl ih
  | case4 i other ih =>
      simp only [ih]
      cases next : name[i + 1]? with
      | none =>
          have out := List.getElem?_eq_none_iff.mp next
          rw [List.take_of_length_le out, List.take_of_length_le (by omega)]
      | some d =>
          obtain ⟨inside, is⟩ := List.getElem?_eq_some_iff.mp next
          rw [List.take_succ_eq_append_getElem (i := i + 1) inside, is, shows_of_ne]
          rintro rfl
          exact other next

theorem mem_ancestors (c p : String) : p ∈ ancestors c ↔ Sees c p := by
  unfold ancestors Sees
  rw [← String.length_toList]
  constructor
  · intro h
    obtain ⟨part, mem, rfl⟩ := List.mem_map.mp h
    simpa [mem_ancestorsFrom] using mem
  · intro h
    exact List.mem_map.mpr ⟨p.toList, by simpa [mem_ancestorsFrom] using h, String.ofList_toList⟩

theorem ancestorsFrom_sorted (name : List Char) (n : Nat) :
    (ancestorsFrom name n).Pairwise fun p q => q.length < p.length := by
  fun_induction ancestorsFrom name n with
  | case1 => exact .nil
  | case2 => exact .nil
  | case3 i dot ih =>
      obtain ⟨inside, -⟩ := List.getElem?_eq_some_iff.mp dot
      refine List.pairwise_cons.mpr ⟨fun part mem => ?_, ih⟩
      have := ((mem_ancestorsFrom name i part).mp mem).length_lt
      simp at *
      omega
  | case4 i _ ih => exact ih

theorem ancestors_sorted (name : String) : (ancestors name).Pairwise fun p q => q.length < p.length := by
  unfold ancestors
  rw [List.pairwise_map]
  simpa [← String.length_toList] using ancestorsFrom_sorted name.toList name.length

/-! ## Parts of names -/

/-- A part of a name that is not empty and ends before a dot. -/
def Leads (p c : String) : Prop := p ≠ "" ∧ ∃ rest, c.toList = p.toList ++ '.' :: rest

section

variable {c p q : String}

theorem Sees.leads (h : Sees c p) : Leads p c := by
  obtain ⟨nonempty, rest, split, -⟩ := h
  refine ⟨?_, rest, split⟩
  rintro rfl
  exact nonempty rfl

theorem Leads.isPrefix (h : Leads p c) : p.toList <+: c.toList := by
  obtain ⟨-, rest, split⟩ := h
  exact ⟨_, split.symm⟩

theorem Leads.length_lt (h : Leads p c) : p.length < c.length := by
  obtain ⟨-, rest, split⟩ := h
  rw [← String.length_toList, ← String.length_toList, split]
  simp

theorem Leads.trans (h : Leads p q) (h' : Leads q c) : Leads p c := by
  obtain ⟨nonempty, rest, split⟩ := h
  obtain ⟨-, rest', split'⟩ := h'
  exact ⟨nonempty, rest ++ '.' :: rest', by simp [split, split']⟩

theorem Leads.of_lt (h : Leads p c) (h' : Leads q c) (shorter : p.length < q.length) : Leads p q := by
  obtain ⟨nonempty, rest, split⟩ := h
  obtain ⟨-, rest', split'⟩ := h'
  simp only [← String.length_toList] at shorter
  refine ⟨nonempty, ?_⟩
  obtain ⟨more, within⟩ : p.toList ++ ['.'] <+: q.toList :=
    List.prefix_of_prefix_length_le ⟨rest, by simp [split]⟩ ⟨_, split'.symm⟩ (by simp; omega)
  exact ⟨more, by simp [← within]⟩

/-- No two dots of the name are next to each other. -/
def Spread (c : String) : Prop := ¬ ['.', '.'] <:+: c.toList

theorem Spread.sees (h : Spread c) (leads : Leads p c) : Sees c p := by
  obtain ⟨nonempty, rest, split⟩ := leads
  refine ⟨fun empty => nonempty (String.toList_eq_nil_iff.mp empty), rest, split, ?_⟩
  cases rest with
  | nil => simp [dots]
  | cons d rest =>
      by_cases dot : d = '.'
      · subst dot
        exact absurd ⟨p.toList, rest, by simp [split]⟩ h
      · simp [dots, dot]

end

/-! ## Links -/

variable {order : List String} {c n p q : String}

/-- What loggers of the name `c` can be linked to when these names have been asked for.  A name
that the root's own name begins with has to come before `c`. -/
def Known (order : List String) (c p : String) : Prop :=
  if p.toList <+: rootName.toList then p ∈ order.takeWhile (· ≠ c) else p ∈ order

instance (order : List String) (c p : String) : Decidable (Known order c p) :=
  inferInstanceAs
    (Decidable (if p.toList <+: rootName.toList then p ∈ order.takeWhile (· ≠ c) else p ∈ order))

/-- A logger is linked to the longest part of its name that it can be linked to. -/
structure Linked (order : List String) (c q : String) : Prop where
  sees : Sees c q
  known : Known order c q
  longest : ∀ p, Sees c p → Known order c p → p.length ≤ q.length

/-- One logger can be reached from another along links. -/
def Reaches (order : List String) : String → String → Prop := Relation.ReflTransGen (Linked order)

/-- What a logger is linked to, if that is not the root. -/
def link? (order : List String) (c : String) : Option String :=
  (ancestors c).find? fun p => decide (Known order c p)

theorem link?_eq_some_iff : link? order c = some q ↔ Linked order c q := by
  have sorted := ancestors_sorted c
  constructor
  · intro found
    obtain ⟨known, longer, shorter, split, unknown⟩ := List.find?_eq_some_iff_append.mp found
    rw [split, List.pairwise_append, List.pairwise_cons] at sorted
    refine ⟨(mem_ancestors c q).mp (by simp [split]), of_decide_eq_true known, fun p sees known' => ?_⟩
    have mem := (mem_ancestors c p).mpr sees
    rw [split, List.mem_append, List.mem_cons] at mem
    obtain mem | rfl | mem := mem
    · simpa [known'] using unknown p mem
    · exact Nat.le_refl _
    · exact Nat.le_of_lt (sorted.2.1.1 p mem)
  · intro linked
    obtain ⟨longer, shorter, split⟩ := List.append_of_mem ((mem_ancestors c q).mpr linked.sees)
    refine List.find?_eq_some_iff_append.mpr ⟨decide_eq_true linked.known, longer, shorter, split, fun p mem => ?_⟩
    have sees : Sees c p := (mem_ancestors c p).mp (by simp [split, mem])
    rw [split, List.pairwise_append] at sorted
    have := sorted.2.2 p mem q (List.mem_cons_self ..)
    have unknown : ¬ Known order c p := fun known => by
      have := linked.longest p sees known
      omega
    simpa using unknown

theorem link?_eq_none_iff : link? order c = none ↔ ∀ p, Sees c p → ¬ Known order c p := by
  simp [link?, mem_ancestors]

theorem link?_congr {order' : List String} (same : ∀ p, Sees c p → (Known order' c p ↔ Known order c p)) :
    link? order' c = link? order c := by
  unfold link?
  exact List.find?_congr fun p mem => by simp only [same p ((mem_ancestors c p).mp mem)]

/-! ## One more name -/

theorem takeWhile_concat_of_mem (asked : c ∈ order) (n : String) :
    (order ++ [n]).takeWhile (· ≠ c) = order.takeWhile (· ≠ c) := by
  obtain ⟨front, back, rfl⟩ := List.append_of_mem asked
  simp [List.takeWhile_append]

theorem takeWhile_concat_of_not_mem (new : n ∉ order) :
    (order ++ [n]).takeWhile (· ≠ n) = order := by
  have all : order.takeWhile (· ≠ n) = order := List.takeWhile_eq_self_iff.mpr fun p mem => by
    simp only [ne_eq, decide_eq_true_eq]
    rintro rfl
    exact new mem
  rw [List.takeWhile_append, if_pos (by rw [all])]
  simp

theorem Known.mem (h : Known order c p) : p ∈ order := by
  unfold Known at h
  split at h
  · exact List.takeWhile_subset _ h
  · exact h

theorem known_concat (asked : c ∈ order) (new : n ∉ order) :
    Known (order ++ [n]) c p ↔ Known order c p ∨ p = n ∧ ¬ n.toList <+: rootName.toList := by
  unfold Known
  rw [takeWhile_concat_of_mem asked]
  by_cases same : p = n
  · subst same
    have early : p ∉ order.takeWhile (· ≠ c) := fun mem => new (List.takeWhile_subset _ mem)
    split <;> simp_all
  · split <;> simp [same]

theorem known_new (new : n ∉ order) (other : p ≠ n) : Known (order ++ [n]) n p ↔ p ∈ order := by
  unfold Known
  rw [takeWhile_concat_of_not_mem new]
  simp [other]

theorem known_again (asked : c ∈ order) (again : n ∈ order) : Known (order ++ [n]) c p ↔ Known order c p := by
  unfold Known
  rw [takeWhile_concat_of_mem asked]
  by_cases same : p = n
  · simp [same, again]
  · simp [same]

/-- What a name sees has no dots if the root's name begins with it, so it is the shortest. -/
theorem length_le_of_late (sees : Sees c n) (late : n.toList <+: rootName.toList) (sees' : Sees c q) :
    n.length ≤ q.length := by
  by_contra longer
  obtain ⟨-, rest, split⟩ := Leads.of_lt sees'.leads sees.leads (by omega)
  have dotted : '.' ∈ rootName.toList := late.subset (by simp [split])
  exact absurd dotted (by decide)

/-- A new name is what a logger is linked to from now on. -/
structure Overtakes (order : List String) (c n : String) : Prop where
  sees : Sees c n
  counts : ¬ n.toList <+: rootName.toList
  longest : ∀ q, link? order c = some q → q.length < n.length

theorem link?_of_overtakes (asked : c ∈ order) (new : n ∉ order) (h : Overtakes order c n) :
    link? (order ++ [n]) c = some n := by
  have known p := known_concat (p := p) asked new
  refine link?_eq_some_iff.mpr ⟨h.sees, (known n).mpr (.inr ⟨rfl, h.counts⟩), fun p sees known' => ?_⟩
  obtain known' | ⟨rfl, -⟩ := (known p).mp known'
  · cases linked : link? order c with
    | none => exact absurd known' (link?_eq_none_iff.mp linked p sees)
    | some q =>
        have := h.longest q linked
        have := (link?_eq_some_iff.mp linked).longest p sees known'
        omega
  · exact Nat.le_refl _

theorem link?_of_not_overtakes (asked : c ∈ order) (new : n ∉ order) (h : ¬ Overtakes order c n) :
    link? (order ++ [n]) c = link? order c := by
  have known p := known_concat (p := p) asked new
  by_cases counts : Sees c n ∧ ¬ n.toList <+: rootName.toList
  · have ⟨q, linked, longer⟩ : ∃ q, link? order c = some q ∧ n.length ≤ q.length := by
      by_contra none
      exact h ⟨counts.1, counts.2, fun q linked => by
        by_contra longer
        exact none ⟨q, linked, by omega⟩⟩
    have link := link?_eq_some_iff.mp linked
    rw [linked]
    refine link?_eq_some_iff.mpr ⟨link.sees, (known q).mpr (.inl link.known), fun p sees known' => ?_⟩
    obtain known' | ⟨rfl, -⟩ := (known p).mp known'
    · exact link.longest p sees known'
    · exact longer
  · refine link?_congr fun p sees => ?_
    rw [known, or_iff_left]
    rintro ⟨rfl, free⟩
    exact counts ⟨sees, free⟩

/-- The test that is made for it looks at the beginning of the name that has been linked to. -/
theorem overtakes_iff :
    Overtakes order c n ↔
      n ∈ ancestors c ∧ n.toList.isPrefixOf ((link? order c).getD rootName).toList = false := by
  rw [mem_ancestors, ← Bool.not_eq_true, List.isPrefixOf_iff_prefix]
  constructor
  · rintro ⟨sees, counts, longest⟩
    refine ⟨sees, fun begins => ?_⟩
    cases linked : link? order c with
    | none => exact counts (by simpa [linked] using begins)
    | some q =>
        have shorter := longest q linked
        simp only [linked, Option.getD_some] at begins
        have := begins.length_le
        simp only [String.length_toList] at this
        omega
  · rintro ⟨sees, free⟩
    cases linked : link? order c with
    | none => exact ⟨sees, by simpa [linked] using free, fun q linked' => by simp [linked] at linked'⟩
    | some q =>
        have sees' := (link?_eq_some_iff.mp linked).sees
        have shorter : q.length < n.length := by
          by_contra longer
          refine free ?_
          rw [linked]
          refine List.prefix_of_prefix_length_le sees.leads.isPrefix sees'.leads.isPrefix ?_
          simp only [Option.getD_some, String.length_toList]
          omega
        refine ⟨sees, fun late => ?_, fun q' linked' => ?_⟩
        · have := length_le_of_late sees late sees'
          omega
        · obtain rfl : q = q' := by simpa [linked] using linked'
          exact shorter

/-- A new logger takes over those that have to be linked to it from now on. -/
theorem adopt_parent {l : Logger} (asked : l.name ∈ order) (new : n ∉ order)
    (parent : l.parent = some ((link? order l.name).getD rootName)) :
    (adopt n l).parent = some ((link? (order ++ [n]) l.name).getD rootName) := by
  unfold adopt
  simp only [parent, Option.getD_some, Bool.and_eq_true, List.contains_iff_mem, Bool.not_eq_true']
  split
  · next taken =>
      rw [link?_of_overtakes asked new (overtakes_iff.mpr taken)]
      rfl
  · next kept => rw [parent, link?_of_not_overtakes asked new (fun h => kept (overtakes_iff.mp h))]

theorem ancestors_root : ancestors rootName = [] := by decide

theorem adopt_root {l : Logger} (isRoot : l.name = rootName) (n : String) : adopt n l = l := by
  simp [adopt, isRoot, ancestors_root]

theorem adopt_name (n : String) (l : Logger) : (adopt n l).name = l.name := by
  simp only [adopt]
  split <;> rfl

theorem adopt_handlers (n : String) (l : Logger) : (adopt n l).handlers = l.handlers := by
  simp only [adopt]
  split <;> rfl

/-! ## Reachable names -/

/-- Links lead to parts of a name only. -/
theorem Reaches.eq_or_leads (h : Reaches order c p) : p = c ∨ Leads p c := by
  unfold Reaches at h
  induction h with
  | refl => exact .inl rfl
  | tail _ linked ih =>
      obtain rfl | leads := ih
      · exact .inr linked.sees.leads
      · exact .inr (linked.sees.leads.trans leads)

theorem Reaches.length_le (h : Reaches order c p) : p.length ≤ c.length := by
  obtain rfl | leads := h.eq_or_leads
  · exact Nat.le_refl _
  · exact Nat.le_of_lt leads.length_lt

end NinjaFile.Logging
