import Mathlib.Data.List.Nodup
import Mathlib.Data.List.Perm.Subperm
import NinjaFile.Proofs.Logging.Links

/-!
# Loggers in order

Asking for a name makes its logger, and puts it in its place among the others.  The chain of a
logger goes along the links, and then to the root; it has each logger once, and so each handler.
-/

namespace NinjaFile.Logging

variable {order : List String} {c n p q : String} {format? : String → Option String}
  {logging : Logging}

/-- There is one logger for each name that has been asked for.  They are linked to each other as
their names say, and each has a handler if a format is kept for it. -/
structure Arranged (order : List String) (format? : String → Option String) (logging : Logging) :
    Prop where
  distinct : (logging.loggers.map (·.name)).Nodup
  names : ∀ n, n ∈ logging.loggers.map (·.name) ↔ n ∈ order
  root : rootName ∈ order
  parents : ∀ l ∈ logging.loggers, l.parent =
    if l.name = rootName then none else some ((link? order l.name).getD rootName)
  handlers : ∀ l ∈ logging.loggers, l.handlers = (format? l.name).toList
  formats : ∀ n f, format? n = some f → n ∈ order ∧ n ≠ rootName

theorem arranged_empty : Arranged [rootName] (fun _ => none) .empty := by
  refine ⟨by simp [empty], by simp [empty], by simp, by simp [empty], by simp [empty], by simp⟩

namespace Arranged

theorem asked_of_mem (h : Arranged order format? logging) {l : Logger} (mem : l ∈ logging.loggers) :
    l.name ∈ order := (h.names l.name).mp (List.mem_map_of_mem mem)

theorem format?_eq_none (h : Arranged order format? logging) (new : n ∉ order) : format? n = none :=
  Option.eq_none_iff_forall_ne_some.mpr fun f kept => new (h.formats n f kept).1

theorem find?_eq_some_iff (h : Arranged order format? logging) {l : Logger} :
    logging.find? n = some l ↔ l ∈ logging.loggers ∧ l.name = n := by
  constructor
  · intro found
    exact ⟨List.mem_of_find?_eq_some found, by simpa using List.find?_some found⟩
  · rintro ⟨mem, rfl⟩
    cases found : logging.find? l.name with
    | none => exact absurd (List.find?_eq_none.mp found l mem) (by simp)
    | some l' =>
        have same : l'.name = l.name := by simpa using List.find?_some found
        rw [List.inj_on_of_nodup_map h.distinct (List.mem_of_find?_eq_some found) mem same]

theorem find?_eq_none_iff (h : Arranged order format? logging) : logging.find? n = none ↔ n ∉ order := by
  rw [← h.names]
  simp [find?]

theorem handlers_eq (h : Arranged order format? logging) (named : n ≠ "") :
    logging.handlers n = (format? n).toList := by
  rw [Logging.handlers, canonical, if_neg named]
  cases found : logging.find? n with
  | none =>
      simp [h.format?_eq_none (h.find?_eq_none_iff.mp found)]
  | some l =>
      obtain ⟨mem, rfl⟩ := h.find?_eq_some_iff.mp found
      simp [h.handlers l mem]

/-! ## What is done to loggers -/

theorem link?_new (new : n ∉ order) :
    link? (order ++ [n]) n = (ancestors n).find? fun p => decide (p ∈ order) := by
  unfold link?
  refine List.find?_congr fun p mem => ?_
  have other : p ≠ n := by
    rintro rfl
    exact absurd ((mem_ancestors p p).mp mem).leads.length_lt (Nat.lt_irrefl _)
  simp only [known_new new other]

theorem ensure_again (h : Arranged order format? logging) (again : n ∈ order) :
    Arranged (order ++ [n]) format? logging := by
  refine ⟨h.distinct, fun m => ?_, by simp [h.root], fun l mem => ?_, h.handlers, fun m f kept => ?_⟩
  · rw [h.names, List.mem_append, List.mem_singleton]
    exact ⟨.inl, fun asked => asked.elim id (· ▸ again)⟩
  · rw [h.parents l mem, link?_congr fun p _ => known_again (h.asked_of_mem mem) again]
  · simp [h.formats m f kept]

theorem ensure_new (h : Arranged order format? logging) (new : n ∉ order) :
    Arranged (order ++ [n]) format?
      { logging with
        loggers := logging.loggers.map (adopt n) ++
          [⟨n, .number 0, [], some ((link? (order ++ [n]) n).getD rootName)⟩] } := by
  have names : (logging.loggers.map (adopt n)).map (·.name) = logging.loggers.map (·.name) := by
    simp [Function.comp_def, adopt_name]
  have notRoot : n ≠ rootName := fun isRoot => new (isRoot ▸ h.root)
  refine ⟨?_, fun m => ?_, by simp [h.root], fun l mem => ?_, fun l mem => ?_, fun m f kept => ?_⟩
  · rw [List.map_append, names, List.map_singleton, List.nodup_append]
    refine ⟨h.distinct, List.nodup_singleton n, fun m mem m' isNew same => new ?_⟩
    obtain rfl : m' = n := List.mem_singleton.mp isNew
    exact (h.names m').mp (same ▸ mem)
  · rw [List.map_append, names, List.mem_append, h.names]
    simp
  · obtain mem | mem := List.mem_append.mp mem
    · obtain ⟨l, old, rfl⟩ := List.mem_map.mp mem
      have parent := h.parents l old
      rw [adopt_name]
      split at parent
      · next isRoot => rw [adopt_root isRoot, parent, if_pos isRoot]
      · next other => rw [adopt_parent (h.asked_of_mem old) new parent, if_neg other]
    · obtain rfl := List.mem_singleton.mp mem
      rw [if_neg notRoot]
  · obtain mem | mem := List.mem_append.mp mem
    · obtain ⟨l, old, rfl⟩ := List.mem_map.mp mem
      rw [adopt_handlers, adopt_name, h.handlers l old]
    · obtain rfl := List.mem_singleton.mp mem
      simp [h.format?_eq_none new]
  · simp [h.formats m f kept]

theorem ensure (h : Arranged order format? logging) (named : n ≠ "") :
    Arranged (order ++ [n]) format? (logging.ensure n) := by
  simp only [Logging.ensure, canonical, if_neg named]
  cases found : logging.find? n with
  | some l =>
      obtain ⟨mem, rfl⟩ := h.find?_eq_some_iff.mp found
      exact h.ensure_again (h.asked_of_mem mem)
  | none =>
      have new := h.find?_eq_none_iff.mp found
      have known : (fun p => (logging.find? p).isSome) = fun p => decide (p ∈ order) := by
        funext p
        rw [Bool.eq_iff_iff, decide_eq_true_iff, Option.isSome_iff_ne_none, Ne, h.find?_eq_none_iff,
          not_not]
      simp only [known, ← link?_new new]
      exact h.ensure_new new

theorem modify (h : Arranged order format? logging) (n : String) {f : Logger → Logger}
    {format?' : String → Option String} (name : ∀ l, (f l).name = l.name)
    (parent : ∀ l, (f l).parent = l.parent)
    (handlers : ∀ l ∈ logging.loggers,
      (if l.name = canonical n then f l else l).handlers = (format?' l.name).toList)
    (formats : ∀ m g, format?' m = some g → m ∈ order ∧ m ≠ rootName) :
    Arranged order format?' (logging.modify n f) := by
  have name (l : Logger) : (if l.name = canonical n then f l else l).name = l.name := by
    split
    · exact name l
    · rfl
  have names : (logging.modify n f).loggers.map (·.name) = logging.loggers.map (·.name) := by
    simp [Logging.modify, Function.comp_def, name]
  refine ⟨names ▸ h.distinct, names ▸ h.names, h.root, fun l mem => ?_, fun l mem => ?_, formats⟩
  · obtain ⟨l, old, rfl⟩ := List.mem_map.mp mem
    rw [name, ← h.parents l old]
    split
    · exact parent l
    · rfl
  · obtain ⟨l, old, rfl⟩ := List.mem_map.mp mem
    rw [name, handlers l old]

theorem setLevel (h : Arranged order format? logging) (n : String) (level : Whole) :
    Arranged order format? (logging.setLevel n level) := by
  refine h.modify n (fun _ => rfl) (fun _ => rfl) (fun l mem => ?_) h.formats
  rw [← h.handlers l mem]
  split <;> rfl

theorem attach (h : Arranged order format? logging) (asked : n ∈ order) (named : n ≠ "")
    (other : n ≠ rootName) (without : format? n = none) (f : String) :
    Arranged order (fun m => (format? m).or (if n = m then some f else none))
      (logging.attach n f) := by
  refine h.modify n (fun _ => rfl) (fun _ => rfl) (fun l mem => ?_) fun m g kept => ?_
  · have before := h.handlers l mem
    rw [canonical, if_neg named]
    by_cases same : l.name = n
    · rw [same, without] at before
      simp [same, without, before]
    · simp [same, Ne.symm same, before]
  · obtain kept | ⟨-, kept⟩ := Option.or_eq_some_iff.mp kept
    · exact h.formats m g kept
    · obtain ⟨rfl, -⟩ := Option.ite_none_right_eq_some.mp kept
      exact ⟨asked, other⟩

theorem log (h : Arranged order format? logging) (view : View) (level : Int) (text : String) :
    Arranged order format? (logging.log view level text) := by
  unfold Logging.log
  split
  · exact ⟨h.distinct, h.names, h.root, h.parents, h.handlers, h.formats⟩
  · exact h

end Arranged

/-! ## Chains -/

/-- The loggers from one up to the root. -/
inductive Path (logging : Logging) : String → List Logger → Prop where
  | root {n : String} {l : Logger} (found : logging.find? n = some l) (top : l.parent = none) :
      Path logging n [l]
  | up {n p : String} {l : Logger} {ls : List Logger} (found : logging.find? n = some l)
      (below : l.parent = some p) (rest : Path logging p ls) : Path logging n (l :: ls)

/-- A list of loggers has the ones that can be reached, and the root. -/
structure Covers (order : List String) (logging : Logging) (c : String) (ls : List Logger) : Prop where
  loggers : ls ⊆ logging.loggers
  distinct : (ls.map (·.name)).Nodup
  names : ∀ p, p ∈ ls.map (·.name) ↔ Reaches order c p ∨ p = rootName

namespace Arranged

end Arranged

end NinjaFile.Logging
