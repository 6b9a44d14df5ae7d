import NinjaFile.Proofs.Logging.Histories

/-!
# Levels of loggers

An owner who is on lowers the level of its logger, and sets one if the logger has none.  Zero is
no level: an owner who is on and asks for it hands its logger over to the ancestors.  As long as
no owner of a name does this, the level of its logger is low enough for all of them, and what a
view lets through is up to its own switch and threshold.
-/

namespace NinjaFile

open Action Program

namespace Logging

variable {logging : Logging} {n m : String} {own level : Int}

/-! ## Levels of their own -/

/-- The level that a logger takes on when an owner asks for one. -/
def lowered (own level : Int) : Int := if own = 0 ∨ level < own then level else own

theorem lowered_spec (own : Int) (given : level ≠ 0) :
    lowered own level ≠ 0 ∧ lowered own level ≤ level := by
  unfold lowered
  split <;> omega

theorem lowered_le_own (had : own ≠ 0) : lowered own level ≤ own := by
  unfold lowered
  split <;> omega

/-- The lowest level counts unless none has been asked for. -/
theorem foldl_lowered_le (own : Int) {levels : List Int} (given : ∀ level ∈ levels, level ≠ 0) :
    (own ≠ 0 → levels.foldl lowered own ≠ 0 ∧ levels.foldl lowered own ≤ own) ∧
    ∀ level ∈ levels, levels.foldl lowered own ≠ 0 ∧ levels.foldl lowered own ≤ level := by
  induction levels generalizing own with
  | nil => simp
  | cons first levels ih =>
      obtain ⟨given, rest⟩ := List.forall_mem_cons.mp given
      obtain ⟨taken, lowest⟩ := lowered_spec own given
      obtain ⟨kept, below⟩ := ih (lowered own first) rest
      obtain ⟨kept, least⟩ := kept taken
      refine ⟨fun had => ⟨kept, least.trans (lowered_le_own had)⟩, ?_⟩
      exact List.forall_mem_cons.mpr ⟨⟨kept, least.trans lowest⟩, below⟩

theorem find?_modify {f : Logger → Logger} (name : ∀ l, (f l).name = l.name) :
    (logging.modify n f).find? m =
      (logging.find? m).map fun l => if l.name = canonical n then f l else l := by
  have same (l : Logger) : (if l.name = canonical n then f l else l).name = l.name := by
    split
    · exact name l
    · rfl
  simp [find?, modify, List.find?_map, same]

theorem ownLevel_modify {f : Logger → Logger} (name : ∀ l, (f l).name = l.name)
    (level : ∀ l, (f l).level = l.level) : (logging.modify n f).ownLevel m = logging.ownLevel m := by
  have same (l : Logger) : (if l.name = canonical n then f l else l).level = l.level := by
    split
    · exact level l
    · rfl
  simp [ownLevel, find?_modify name, Function.comp_def, same]

theorem ownLevel_setLevel (known : (logging.find? (canonical n)).isSome) (level : Whole) :
    (logging.setLevel n level).ownLevel m =
      if canonical n = canonical m then level else logging.ownLevel m := by
  have put : (logging.setLevel n level).find? (canonical m) =
      (logging.find? (canonical m)).map fun l => if l.name = canonical n then { l with level := level } else l :=
    find?_modify fun _ => rfl
  rw [ownLevel, put, ownLevel]
  cases found : logging.find? (canonical m) with
  | none =>
      have other : canonical n ≠ canonical m := fun same => by simp [same, found] at known
      simp [other]
  | some l =>
      have name : l.name = canonical m := by simpa using List.find?_some found
      by_cases same : canonical n = canonical m
      · simp [name, same]
      · simp [name, same, Ne.symm same]

theorem adopt_level (l : Logger) : (adopt n l).level = l.level := by
  simp only [adopt]
  split <;> rfl

theorem ownLevel_ensure : (logging.ensure n).ownLevel m = logging.ownLevel m := by
  simp only [ensure]
  split
  · rfl
  · simp only [ownLevel, find?, List.find?_append, List.find?_map, Function.comp_def, adopt_name]
    cases logging.loggers.find? fun l => l.name == canonical m with
    | some l => simp [adopt_level]
    | none => by_cases new : canonical n = canonical m <;> simp [new]

theorem canonical_eq_iff (named : n ≠ "") (other : n ≠ rootName) : canonical n = canonical m ↔ n = m := by
  unfold canonical
  split <;> split <;> simp_all

theorem isSome_find?_ensure : ((logging.ensure n).find? (canonical n)).isSome := by
  simp only [ensure]
  split
  · next found => simp [found]
  · simp [find?, List.find?_append]

theorem ownLevel_log (view : View) (level : Int) (text : String) :
    (logging.log view level text).ownLevel m = logging.ownLevel m := by
  unfold log
  split <;> rfl

/-- A level of its own counts for a logger, whatever its ancestors have. -/
theorem effectiveLevel_of_ownLevel (given : (logging.ownLevel n).value ≠ 0) :
    logging.effectiveLevel n = (logging.ownLevel n).value := by
  cases found : logging.find? (canonical n) with
  | none => simp [ownLevel, found] at given
  | some l =>
      have own : logging.ownLevel n = l.level := by simp [ownLevel, found]
      have first : ∃ above, logging.chain n = l :: above := by
        obtain ⟨fuel, enough⟩ := Nat.exists_eq_succ_of_ne_zero
          (List.length_pos_of_mem (List.mem_of_find?_eq_some found)).ne'
        rw [chain, enough, chainFrom, found]
        dsimp only
        split <;> exact ⟨_, rfl⟩
      obtain ⟨above, chain⟩ := first
      rw [own] at given
      simp [effectiveLevel, chain, own, given]

end Logging

/-! ## Asking for a logger -/

namespace View

open Logging

variable {s : Store} {n m : String}

theorem alone_lowerLevel_eq {own : Int} (s : Store) (has : s.logging.ownLevel n = .number own)
    (level : Int) :
    (lowerLevel n (.int level)).alone s = (.ok (),
      { s with
        logging :=
          if own = 0 ∨ level < own then s.logging.setLevel n (.number level) else s.logging }) := by
  have compared : showsLess (.number own) (.int level) = .ok (decide (own = 0 ∨ level < own)) := by
    by_cases none : own = 0 <;> simp [showsLess, none, Value.ofWhole, Value.exceeds]
  rw [lowerLevel, alone_read_bind, has, compared]
  by_cases lower : own = 0 ∨ level < own
  · rw [decide_eq_true lower, if_pos lower]
    rfl
  · rw [decide_eq_false lower, if_neg lower]
    rfl

theorem ownLevel_bringHandler (s : Store) (n m format : String) :
    ((bringHandler n (.text format)).alone s).2.logging.ownLevel m = s.logging.ownLevel m := by
  rw [bringHandler, alone_read_bind]
  split
  · rfl
  · obtain ⟨fault, failed⟩ | made := alone_formatOf s format
    · rw [alone_bind, failed]
    · rw [alone_bind_ok made]
      exact ownLevel_modify (fun _ => rfl) (fun _ => rfl)

theorem ownLevel_action {own : String → Int} (s : Store) (r : Request)
    (has : ∀ m, s.logging.ownLevel m = .number (own m)) (m : String) :
    (r.action.alone s).2.logging.ownLevel m =
      .number (if r.isOn ∧ r.owner = m then lowered (own m) r.threshold else own m) := by
  have ensured (m : String) : (s.logging.ensure r.owner).ownLevel m = .number (own m) :=
    ownLevel_ensure.trans (has m)
  have known : ((s.logging.ensure r.owner).find? (canonical r.owner)).isSome := isSome_find?_ensure
  rw [alone_action_eq]
  by_cases on : r.isOn
  · rw [if_pos on, alone_bind_ok (alone_lowerLevel_eq _ (ensured r.owner) r.threshold),
      alone_bind_return, ownLevel_bringHandler]
    by_cases lower : own r.owner = 0 ∨ r.threshold < own r.owner
    · rw [if_pos lower, ownLevel_setLevel known]
      by_cases here : r.owner = m
      · subst here
        rw [if_pos rfl, if_pos ⟨on, rfl⟩, lowered, if_pos lower]
      · rw [if_neg (mt (canonical_eq_iff r.owner_ne_empty r.owner_ne_root).mp here),
          if_neg fun asked => here asked.2, ensured]
    · rw [if_neg lower, ensured]
      split
      · next asked =>
          rw [← asked.2, lowered, if_neg lower]
      · rfl
  · rw [if_neg on, if_neg fun asked => on asked.1]
    exact ensured m

end View

namespace Logging

/-- The level that the logger of a name is asked for. -/
def Deed.level? (name : String) : Deed → Option Int
  | .make r => if r.isOn ∧ r.owner = name then some r.threshold else none
  | .log .. => none

namespace Scene

variable {scene : Scene} {own : String → Int}

theorem ownLevel_next (h : scene.Valid) (has : ∀ m, scene.store.logging.ownLevel m = .number (own m))
    (deed : Deed) (m : String) :
    (scene.next deed).store.logging.ownLevel m =
      .number ((deed.level? m).elim (own m) (lowered (own m))) := by
  cases deed with
  | make r =>
      have stored : (scene.next (.make r)).store = (r.action.alone scene.store).2 := by
        rw [next]
        rcases r.action.alone scene.store with ⟨_ | _, _⟩ <;> rfl
      rw [stored, View.ownLevel_action scene.store r has m, Deed.level?]
      split <;> rfl
  | log i level text =>
      rw [next]
      split
      · next r view found =>
          rw [View.alone_logAt (h.bare view.identity)]
          exact (ownLevel_log view level text).trans (has m)
      · exact has m

/-- At first there is only the root. -/
def startLevel (name : String) : Int := if canonical name = rootName then rootLevel else 0

theorem ownLevel_start (files : FileTree) (m : String) :
    (start files).store.logging.ownLevel m = .number (startLevel m) := by
  have only : (start files).store.logging = .empty := rfl
  by_cases isRoot : canonical m = rootName
  · simp [only, ownLevel, find?, empty, startLevel, isRoot]
  · simp [only, ownLevel, find?, empty, startLevel, isRoot, Ne.symm isRoot]

/-- The level of a logger comes from the levels that it has been asked for, one after the other. -/
theorem ownLevel_run (h : scene.Valid) (has : ∀ m, scene.store.logging.ownLevel m = .number (own m))
    (deeds : List Deed) (m : String) :
    (scene.run deeds).store.logging.ownLevel m =
      .number ((deeds.filterMap (Deed.level? m)).foldl lowered (own m)) := by
  induction deeds generalizing scene own with
  | nil => exact has m
  | cons deed deeds ih =>
      refine (ih (next_valid h deed) (ownLevel_next h has deed)).trans ?_
      cases asked : deed.level? m <;> simp [asked]

theorem made_next (h : scene.Valid) (deed : Deed) {r : Request} {view : View}
    (made : (r, view) ∈ (scene.next deed).made) :
    (r, view) ∈ scene.made ∨
      deed = .make r ∧ view = ⟨view.serial, r.owner, r.isOn, r.threshold⟩ := by
  cases deed with
  | make asked =>
      obtain ⟨_, ⟨fault, failed, -⟩ | ⟨given, -⟩⟩ := View.alone_action h.arranged asked
      · rw [next, failed] at made
        exact .inl made
      · rw [next, given] at made
        obtain made | new := List.mem_append.mp made
        · exact .inl made
        · obtain ⟨rfl, rfl⟩ := Prod.mk.inj (List.mem_singleton.mp new)
          exact .inr ⟨rfl, rfl⟩
  | log i level text =>
      rw [next] at made
      split at made <;> exact .inl made

theorem made_run (h : scene.Valid) (deeds : List Deed) {r : Request} {view : View}
    (made : (r, view) ∈ (scene.run deeds).made) :
    (r, view) ∈ scene.made ∨
      .make r ∈ deeds ∧ view = ⟨view.serial, r.owner, r.isOn, r.threshold⟩ := by
  induction deeds generalizing scene with
  | nil => exact .inl made
  | cons deed deeds ih =>
      obtain made | ⟨asked, settings⟩ := ih (next_valid h deed) made
      · obtain made | ⟨rfl, settings⟩ := made_next h deed made
        · exact .inl made
        · exact .inr ⟨List.mem_cons_self, settings⟩
      · exact .inr ⟨List.mem_cons_of_mem _ asked, settings⟩

/-- As long as no owner of its name is on and asks for no level, a view is up to its own settings. -/
theorem admits_run (files : FileTree) (deeds : List Deed) {r : Request} {view : View}
    (made : (r, view) ∈ ((start files).run deeds).made)
    (leveled : 0 ∉ deeds.filterMap (Deed.level? r.owner)) (level : Int) :
    (view.admits (.int level)).alone ((start files).run deeds).store =
      (.ok (r.isOn && decide (r.threshold ≤ level) && decide (0 < level)),
        ((start files).run deeds).store) := by
  have valid := run_valid (start_valid files) deeds
  obtain made | ⟨asked, settings⟩ := made_run (start_valid files) deeds made
  · simp [start] at made
  rw [View.alone_admits (valid.bare view.identity), settings, isEnabledFor, lets]
  by_cases on : r.isOn
  · have mem : r.threshold ∈ deeds.filterMap (Deed.level? r.owner) :=
      List.mem_filterMap.mpr ⟨.make r, asked, if_pos ⟨on, rfl⟩⟩
    have own := ownLevel_run (start_valid files) (ownLevel_start files) deeds r.owner
    generalize ((start files).run deeds).store = s at own
    obtain ⟨given, low⟩ := (foldl_lowered_le (startLevel r.owner)
      fun level mem none => leveled (none ▸ mem)).2 r.threshold mem
    have effective := effectiveLevel_of_ownLevel (by rwa [own])
    rw [own, Whole.value_number] at effective
    rw [effective]
    congr 2
    grind
  · simp [on]

end Scene

end Logging

end NinjaFile
