import NinjaFile.Proofs.Frame.Framing
import NinjaFile.Proofs.Sharing.Owners

/-!
# A register of homes

A list that has once been the list of a place stays with this place for good: it may give way
to a copy of itself and come back, but it never becomes the list of another place.  So a
register of which list has been whose only grows, and no two places are ever in it with the
same list.  A list that a thread has made is its own until it is the list of a place.
-/

namespace NinjaFile

open Store
open Sharing (MadeList madeList_append)

namespace Store

/-- The list is that of the place. -/
structure Houses (s : Store) (l : ListId) (x : Place) : Prop where
  has : s.HasPlace x
  spot : s.spot x = l

/-- What there was is still there, and nothing has been assigned. -/
structure Later (s s' : Store) : Prop where
  lists : s.lists.size ≤ s'.lists.size
  nodes : ∀ n, s.HasNode n → s'.HasNode n
  documents : ∀ d, s.HasDocument d → s'.HasDocument d ∧ s'.document d = s.document d
  assigned : s'.assigned = s.assigned

namespace Later

variable {s s' s'' : Store}

theorem refl (s : Store) : s.Later s := ⟨Nat.le_refl _, fun _ => id, fun _ h => ⟨h, rfl⟩, rfl⟩

theorem trans (h : s.Later s') (h' : s'.Later s'') : s.Later s'' where
  lists := Nat.le_trans h.lists h'.lists
  nodes n hn := h'.nodes n (h.nodes n hn)
  documents d hd := by
    obtain ⟨has, same⟩ := h.documents d hd
    obtain ⟨has', same'⟩ := h'.documents d has
    exact ⟨has', same'.trans same⟩
  assigned := h'.assigned.trans h.assigned

theorem of_adds (h : s.Adds s') : s.Later s' where
  lists := h.lists
  nodes _ := h.hasNode
  documents d hd := by
    rw [HasDocument, document, h.documents]
    exact ⟨hd, rfl⟩
  assigned := h.assigned

theorem of_alike (h : s.Alike s') : s.Later s' where
  lists := Nat.le_of_eq h.size.symm
  nodes n := (h.hasNode n).mpr
  documents d hd := ⟨(h.hasDocument d).mpr hd, h.document_eq d⟩
  assigned := h.assigned

theorem leads (later : s.Later s') {h : Handle} {d : DocumentId} (leads : s.Leads h d) :
    s'.Leads h d := by
  obtain ⟨has, same⟩ := later.documents d leads.has
  exact ⟨has, by rw [same]; exact leads.arena⟩

theorem suits (later : s.Later s') {x : Place} {v : Value} (h : s.Suits x v) : s'.Suits x v :=
  h.mono later.nodes

end Later

end Store

namespace Housing

/-- Which lists have been those of which places. -/
abbrev Register := ListId → Place → Prop

/-- The register tells of every place that there is, and never of two places with one list. -/
structure Register.Keeps (reg : Register) (s : Store) : Prop where
  unassigned : s.assigned = []
  houses : ∀ l x, s.Houses l x → reg l x
  one : ∀ l x y, reg l x → reg l y → x = y
  known : ∀ l x, reg l x → l.index < s.lists.size
  suits : ∀ l x, reg l x → ∀ v ∈ (s.list l).items, s.Suits x v

def Register.add (reg : Register) (s : Store) : Register := fun l x => reg l x ∨ s.Houses l x

section

variable {reg : Register} {trail trail' : List (Store × Store)} {s s' : Store} {l : ListId} {x : Place}

theorem Register.Keeps.housed (h : reg.Keeps s) : s.Housed where
  unassigned := h.unassigned
  known x hx := h.known _ x (h.houses _ x ⟨hx, rfl⟩)
  apart x y hx hy heq := h.one _ x y (h.houses _ x ⟨hx, rfl⟩) (h.houses _ y ⟨hy, heq.symm⟩)
  suits x hx := h.suits _ x (h.houses _ x ⟨hx, rfl⟩)

/-! ## What a thread knows -/

/-- In one of some steps the list was that of the place. -/
def Saw (trail : List (Store × Store)) (l : ListId) (x : Place) : Prop :=
  ∃ step ∈ trail, step.1.Houses l x ∨ step.2.Houses l x

/-- Some steps have made the list, and have not given it to a place. -/
structure Own (trail : List (Store × Store)) (l : ListId) : Prop where
  made : MadeList trail l
  unused : ∀ x, ¬ Saw trail l x

/-- The list is that of the place, or was so in one of some steps. -/
def Knows (trail : List (Store × Store)) (s : Store) (l : ListId) (x : Place) : Prop :=
  Saw trail l x ∨ s.Houses l x

theorem not_saw_nil : ¬ Saw [] l x := by
  rintro ⟨step, mem, -⟩
  cases mem

theorem not_madeList_nil : ¬ MadeList [] l := by
  rintro ⟨step, mem, -⟩
  cases mem

theorem Saw.mono (h : Saw trail l x) (more : List (Store × Store)) : Saw (trail ++ more) l x := by
  obtain ⟨step, mem, houses⟩ := h
  exact ⟨step, List.mem_append_left _ mem, houses⟩

theorem saw_append : Saw (trail ++ [(s, s')]) l x ↔ Knows trail s l x ∨ s'.Houses l x := by
  constructor
  · rintro ⟨step, mem, houses⟩
    rcases List.mem_append.mp mem with old | new
    · exact .inl (.inl ⟨step, old, houses⟩)
    · cases List.mem_singleton.mp new
      exact houses.imp_left .inr
  · rintro ((saw | houses) | houses)
    · exact saw.mono _
    · exact ⟨_, List.mem_append_right _ (List.mem_singleton_self _), .inl houses⟩
    · exact ⟨_, List.mem_append_right _ (List.mem_singleton_self _), .inr houses⟩

/-- The register is right, and agrees with what a thread has seen and made. -/
structure Register.Agrees (reg : Register) (trail : List (Store × Store)) (s : Store) : Prop where
  keeps : reg.Keeps s
  saw : ∀ l x, Saw trail l x → reg l x
  own : ∀ l x, Own trail l → ¬ reg l x
  made : ∀ l, MadeList trail l → l.index < s.lists.size

theorem Register.Agrees.knows (h : reg.Agrees trail s) (known : Knows trail s l x) : reg l x :=
  known.elim (h.saw l x) (h.keeps.houses l x)

/-- A list of a thread's own is that of no place. -/
theorem Register.Agrees.vacant (h : reg.Agrees trail s) (own : Own trail l) (x : Place) :
    ¬ s.Houses l x :=
  fun houses => h.own l x own (h.keeps.houses l x houses)

/-! ## What a thread does -/

/-- A place gets a list that was its own before, or one that the thread has made.  Lists that
have been those of places are added to with what these are for. -/
structure Act (trail : List (Store × Store)) (s s' : Store) : Prop where
  later : s.Later s'
  houses : ∀ l x, s'.Houses l x → Knows trail s l x ∨
    Own trail l ∧ (∀ y, s'.Houses l y → y = x) ∧ ∀ v ∈ (s'.list l).items, s'.Suits x v
  items : ∀ l, l.index < s.lists.size → (s'.list l).items = (s.list l).items ∨ Own trail l ∨
    ∃ x more, Knows trail s l x ∧ (s'.list l).items = (s.list l).items ++ more ∧
      ∀ v ∈ more, s'.Suits x v

namespace Act

variable (act : Act trail s s') (agrees : reg.Agrees trail s)

include act agrees

theorem keeps : (reg.add s').Keeps s' := by
  -- A new home is one that was known already, or its list is in nobody's register.
  have homes {l : ListId} {x : Place} (houses : s'.Houses l x) : reg l x ∨
      (∀ y, ¬ reg l y) ∧ (∀ y, s'.Houses l y → y = x) ∧ Own trail l ∧
        ∀ v ∈ (s'.list l).items, s'.Suits x v := by
    obtain known | ⟨own, only, suits⟩ := act.houses l x houses
    · exact .inl (agrees.knows known)
    · exact .inr ⟨fun y => agrees.own l y own, only, own, suits⟩
  have old {l : ListId} {x : Place} (known : reg l x) : ∀ v ∈ (s'.list l).items, s'.Suits x v := by
    intro v hv
    obtain same | own | ⟨y, more, knows, items, suits⟩ := act.items l (agrees.keeps.known l x known)
    · rw [same] at hv
      exact act.later.suits (agrees.keeps.suits l x known v hv)
    · exact absurd known (agrees.own l x own)
    · rw [items] at hv
      rcases List.mem_append.mp hv with hv | hv
      · exact act.later.suits (agrees.keeps.suits l x known v hv)
      · rw [agrees.keeps.one l x y known (agrees.knows knows)]
        exact suits v hv
  constructor
  · exact act.later.assigned.trans agrees.keeps.unassigned
  · exact fun l x houses => .inr houses
  · -- Two homes of one list: if either is old the other one is, too.
    rintro l x y (hx | hx) (hy | hy)
    · exact agrees.keeps.one l x y hx hy
    · obtain hy | ⟨none, -⟩ := homes hy
      · exact agrees.keeps.one l x y hx hy
      · exact absurd hx (none x)
    · obtain hx | ⟨none, -⟩ := homes hx
      · exact agrees.keeps.one l x y hx hy
      · exact absurd hy (none y)
    · obtain known | ⟨none, only, -⟩ := homes hy
      · obtain hx | ⟨none, -⟩ := homes hx
        · exact agrees.keeps.one l x y hx known
        · exact absurd known (none y)
      · exact only x hx
  · rintro l x (known | houses)
    · exact Nat.lt_of_lt_of_le (agrees.keeps.known l x known) act.later.lists
    · obtain known | ⟨-, -, own, -⟩ := homes houses
      · exact Nat.lt_of_lt_of_le (agrees.keeps.known l x known) act.later.lists
      · exact Nat.lt_of_lt_of_le (agrees.made l own.made) act.later.lists
  · rintro l x (known | houses)
    · exact old known
    · obtain known | ⟨-, -, -, suits⟩ := homes houses
      · exact old known
      · exact suits

theorem agrees_own : (reg.add s').Agrees (trail ++ [(s, s')]) s' where
  keeps := act.keeps agrees
  saw l x saw := by
    rcases saw_append.mp saw with known | houses
    · exact .inl (agrees.knows known)
    · exact .inr houses
  own l x own := by
    have unused : ¬ Knows trail s l x ∧ ¬ s'.Houses l x := by
      simpa only [saw_append, not_or] using own.unused x
    rintro (known | houses)
    · rcases madeList_append.mp own.made with made | ⟨new, -⟩
      · refine agrees.own l x ⟨made, fun y saw => own.unused y (saw.mono _)⟩ known
      · exact absurd (agrees.keeps.known l x known) (Nat.not_lt.mpr new)
    · exact unused.2 houses
  made l made := by
    rcases madeList_append.mp made with made | ⟨-, known⟩
    · exact Nat.lt_of_lt_of_le (agrees.made l made) act.later.lists
    · exact known

theorem agrees_other (agrees' : reg.Agrees trail' s)
    (apart : ∀ l, MadeList trail l → ¬ MadeList trail' l) :
    (reg.add s').Agrees trail' s' ∧ ∀ l, Own trail' l → (s'.list l).items = (s.list l).items := by
  refine ⟨⟨act.keeps agrees, fun l x saw => .inl (agrees'.saw l x saw), fun l x own => ?_,
    fun l made => Nat.lt_of_lt_of_le (agrees'.made l made) act.later.lists⟩, fun l own => ?_⟩
  · rintro (known | houses)
    · exact agrees'.own l x own known
    · obtain known | ⟨mine, -⟩ := act.houses l x houses
      · exact agrees'.own l x own (agrees.knows known)
      · exact apart l mine.made own.made
  · obtain same | mine | ⟨x, more, knows, -⟩ := act.items l (agrees'.made l own.made)
    · exact same
    · exact absurd own.made (apart l mine.made)
    · exact absurd (agrees.knows knows) (agrees'.own l x own)

end Act

/-! ## Acts -/

/-- Nothing has changed that there was, and there are no new statements and documents. -/
structure Idle (s s' : Store) : Prop where
  adds : s.Adds s'
  nodes : ∀ n, s'.HasNode n → s.HasNode n

namespace Idle

theorem refl (s : Store) : Idle s s := ⟨.refl s, fun _ => id⟩

variable (idle : Idle s s')

include idle

theorem houses_iff : s'.Houses l x ↔ s.Houses l x := by
  have hasPlace : s'.HasPlace x ↔ s.HasPlace x :=
    hasPlace_congr (fun n => ⟨idle.nodes n, idle.adds.hasNode⟩) idle.adds.documents x
  have spot (hx : s.HasPlace x) : s'.spot x = s.spot x := by
    cases x with
    | part n q => exact idle.adds.part hx.1 q
    | statements d => rw [Store.spot, Store.spot, document, document, idle.adds.documents]
  constructor
  · rintro ⟨has, rfl⟩
    exact ⟨hasPlace.mp has, (spot (hasPlace.mp has)).symm⟩
  · rintro ⟨has, rfl⟩
    exact ⟨hasPlace.mpr has, spot has⟩

theorem act : Act trail s s' where
  later := .of_adds idle.adds
  houses _ _ houses := .inl (.inr (idle.houses_iff.mp houses))
  items l hl := .inl (congrArg GuardedList.items (idle.adds.list l hl))

theorem own (agrees : reg.Agrees trail s) (own : Own trail l) : Own (trail ++ [(s, s')]) l where
  made := madeList_append.mpr (.inl own.made)
  unused x saw := by
    rcases saw_append.mp saw with (saw | houses) | houses
    · exact own.unused x saw
    · exact agrees.vacant own x houses
    · exact agrees.vacant own x (idle.houses_iff.mp houses)

end Idle

end

end Housing

end NinjaFile
