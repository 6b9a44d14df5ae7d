import NinjaFile.Proofs.Sharing.Accounts

/-!
# Calls among others

What is known at any time of a call on a shared document, and of two calls of which one was
made before the other.
-/

namespace NinjaFile

open Store

/-- The call has not ended yet. -/
def Task.goesOn {κ : Type} (task : Task κ) : Bool := task.outcome?.isNone

theorem Task.outcome_of_ended {κ : Type} {task : Task κ} (h : task.goesOn = false) :
    ∃ r, task.outcome? = some r :=
  Option.isSome_iff_exists.mp (by simpa [Task.goesOn] using h)

namespace Sharing

/-! ## What one step does -/

section Stepped

variable {κ : Type} {c : Setting} {task : Task κ} {s s' : Store} {p : Progress Store}

/-- A step is a known act, or it changes guards at most. -/
theorem act_or_alike (stepped : task.Stepped c.terms s p s') :
    Act c.arena c.stake task.progress.trail s s' ∧ p.trail = task.progress.trail ++ [(s, s')] ∨
      s.Alike s' ∧ p.trail = task.progress.trail := by
  cases stepped with
  | idle => exact .inr ⟨.refl s, rfl⟩
  | act keeps => exact .inl ⟨keeps, rfl⟩
  | enter | wait | leave => exact .inr ⟨.setGuard s _ _, rfl⟩

theorem grows_stepped (stepped : task.Stepped c.terms s p s') : Grows s s' := by
  rcases act_or_alike stepped with ⟨act, -⟩ | ⟨like, -⟩
  · exact act.grows
  · exact .alike like

theorem rely_stepped (stepped : task.Stepped c.terms s p s') {k : Stake}
    {trail : List (Store × Store)} (owns : Owns c.arena k trail s)
    (apart : Apart k trail c.stake task.progress.trail) : Rely k trail s s' := by
  rcases act_or_alike stepped with ⟨act, -⟩ | ⟨like, -⟩
  · exact act.rely owns apart
  · exact .alike like

theorem owns_stepped (stepped : task.Stepped c.terms s p s') (safe : Safe c.document c.arena s)
    (owns : Owns c.arena c.stake task.progress.trail s) : Owns c.arena c.stake p.trail s' := by
  rcases act_or_alike stepped with ⟨act, htrail⟩ | ⟨like, htrail⟩ <;> rw [htrail]
  · exact act.owns safe owns
  · exact Rely.owns (.alike like) owns

theorem apart_stepped (stepped : task.Stepped c.terms s p s') {k : Stake}
    {trail : List (Store × Store)} (apart : Apart c.stake task.progress.trail k trail)
    (known : Known k trail s) : Apart c.stake p.trail k trail := by
  rcases act_or_alike stepped with ⟨-, htrail⟩ | ⟨-, htrail⟩ <;> rw [htrail]
  · exact apart.note known
  · exact apart

theorem hasList_stepped (stepped : task.Stepped c.terms s p s') {l : ListId}
    (h : c.stake.HasList task.progress.trail l) : c.stake.HasList p.trail l := by
  rcases act_or_alike stepped with ⟨-, htrail⟩ | ⟨-, htrail⟩ <;> rw [htrail]
  · exact Stake.hasList_append.mpr (.inl h)
  · exact h

theorem hasNode_stepped (stepped : task.Stepped c.terms s p s') {n : Node}
    (h : c.stake.HasNode task.progress.trail n) : c.stake.HasNode p.trail n := by
  rcases act_or_alike stepped with ⟨-, htrail⟩ | ⟨-, htrail⟩ <;> rw [htrail]
  · exact Stake.hasNode_append.mpr (.inl h)
  · exact h

/-- The document stays as it is, or the call appends its one statement. -/
theorem document_stepped (stepped : task.Stepped c.terms s p s')
    (safe : Safe c.document c.arena s) :
    ((s'.list c.arena.statements).items = (s.list c.arena.statements).items ∧
        added c.arena.statements p.trail = added c.arena.statements task.progress.trail) ∨
      c.stake.inserts = true ∧ added c.arena.statements task.progress.trail = [] ∧
        ∃ v, (s'.list c.arena.statements).items =
            (s.list c.arena.statements).items ++ [v] ∧
          added c.arena.statements p.trail = [(v, (s.list c.arena.statements).items.length)] := by
  rcases act_or_alike stepped with ⟨act, htrail⟩ | ⟨like, htrail⟩ <;> rw [htrail]
  · rcases act.document safe with same | ⟨inserts, first, v, more⟩
    · exact .inl ⟨same, added_same same⟩
    · refine .inr ⟨inserts, first, v, more, ?_⟩
      rw [added_append, first, List.nil_append]
      simp [added, more, List.zipIdx_append]
  · exact .inl ⟨like.items _, rfl⟩

/-- What comes to a statement is what the call has added, and the statement is its own. -/
theorem content_stepped (stepped : task.Stepped c.terms s p s')
    (safe : Safe c.document c.arena s) (owns : Owns c.arena c.stake task.progress.trail s)
    (n : Node) (q : Part) :
    ∃ more, content s' n q = content s n q ++ more ∧
      gained n q p.trail = gained n q task.progress.trail ++ more ∧
      (more ≠ [] → c.stake.HasNode p.trail n) := by
  rcases act_or_alike stepped with ⟨act, htrail⟩ | ⟨like, htrail⟩ <;> rw [htrail]
  · rcases act.content safe owns n q with same | ⟨own, more, heq⟩
    · exact ⟨[], by simp [same], by simp [gained_same same], fun h => absurd rfl h⟩
    · refine ⟨more, heq.symm, ?_, fun _ => own⟩
      rw [gained_note, ← heq, List.drop_left]
  · exact ⟨[], by simp [content_alike like], by simp, fun h => absurd rfl h⟩

end Stepped

/-! ## One call -/

/-- A call with what it has to itself. -/
structure Work where
  call : Call
  stake : Stake

/-- How a call ends: it is in no guard any more and was refused none, and if it returns, it
has done what it is for. -/
structure Work.Ends (a : Arena) (w : Work) (r : Except Fault Value) (g : Progress Store) :
    Prop where
  outside : g.inside = []
  done : ∀ v, r = .ok v → w.call.Done a w.stake g.trail
  inside : ∀ v, r = .ok v → Inside a v
  granted : ∀ fault, r = .error fault → fault.isBorrow = false

def Work.setting (d : DocumentId) (a : Arena) (w : Work) : Setting := ⟨d, a, w.stake⟩

/-- The call stands by its terms. -/
def Stays (d : DocumentId) (a : Arena) (task : Task Work) (s : Store) : Prop :=
  task.Stands (task.call.setting d a).terms (fun r g _ => task.call.Ends a r g) s

/-- What is known of a call. -/
structure Orderly (d : DocumentId) (a : Arena) (task : Task Work) (s : Store) : Prop where
  known : Known task.call.stake task.progress.trail s
  aims : task.call.stake.node = task.call.call.subject? s
  serves : task.call.stake.inserts = task.call.call.inserts ∧
    task.call.stake.holds = task.call.call.holds
  reaches : ∀ h ∈ task.call.call.through?, Reaches s h
  owns : task.goesOn → Owns a task.call.stake task.progress.trail s
  stays : task.goesOn → Stays d a task s
  ended : ∀ r, task.outcome? = some r → task.call.Ends a r task.progress
  once : (added a.statements task.progress.trail).length ≤ 1
  inserts : added a.statements task.progress.trail ≠ [] → task.call.stake.inserts = true
  mine : ∀ n q, gained n q task.progress.trail ≠ [] →
    task.call.stake.HasNode task.progress.trail n
  writes : ∀ l, (.list l, .write) ∈ task.progress.inside → task.call.stake.holds = false ∧
    (l = a.statements ∨ task.call.stake.HasList task.progress.trail l)
  holding : task.call.stake.holds = true → task.call.stake.inserts = false

section

variable {d : DocumentId} {a : Arena} {task : Task Work} {s s' : Store}

theorem Orderly.outside (h : Orderly d a task s) (ended : task.goesOn = false) :
    task.progress.inside = [] := by
  obtain ⟨r, hr⟩ := Task.outcome_of_ended ended
  exact (h.ended r hr).outside

theorem reaches_grows (grows : Grows s s') {h : Handle} (reaches : Reaches s h) :
    Reaches s' h :=
  ⟨reaches.1, Nat.lt_of_lt_of_le reaches.2 (grows.items h.arena.statements).length_le⟩

theorem subject_grows (grows : Grows s s') {call : Call}
    (reaches : ∀ h ∈ call.through?, Reaches s h) : call.subject? s' = call.subject? s := by
  have same (r : Receiver) (reaches : ∀ h, r = .handle h → Reaches s h) :
      r.subject? s' = r.subject? s := by
    cases r with
    | node | mixin => rfl
    | handle h =>
        obtain ⟨-, hlt⟩ := reaches h rfl
        obtain ⟨more, heq⟩ := grows.items h.arena.statements
        rw [Receiver.subject?, Receiver.subject?, ← heq, List.getElem?_append_left hlt]
  cases call with
  | insert i => cases i <;> rfl
  | attach r _ | usePool r _ | addPaths r =>
      refine same r ?_
      rintro h rfl
      exact reaches h rfl
  | _ => rfl

theorem Orderly.rely (h : Orderly d a task s) (grows : Grows s s')
    (rely : task.goesOn → Rely task.call.stake task.progress.trail s s') :
    Orderly d a task s' where
  known := h.known.grows grows
  aims := h.aims.trans (subject_grows grows h.reaches).symm
  serves := h.serves
  reaches handle hh := reaches_grows grows (h.reaches handle hh)
  owns goes := (rely goes).owns (h.owns goes)
  stays goes := (h.stays goes).rely (steady_terms _) (rely goes)
  ended := h.ended
  once := h.once
  inserts := h.inserts
  mine := h.mine
  writes := h.writes
  holding := h.holding

private theorem writes_stepped {c : Setting} {p : Progress Store}
    (stepped : task.Stepped c.terms s p s')
    (writes : ∀ l, (.list l, .write) ∈ task.progress.inside → c.stake.holds = false ∧
      (l = c.arena.statements ∨ c.stake.HasList task.progress.trail l)) :
    ∀ l, (.list l, .write) ∈ p.inside → c.stake.holds = false ∧
      (l = c.arena.statements ∨ c.stake.HasList p.trail l) := by
  intro l hl
  have before (hl : (.list l, .write) ∈ task.progress.inside) : c.stake.holds = false ∧
      (l = c.arena.statements ∨ c.stake.HasList p.trail l) :=
    ⟨(writes l hl).1, (writes l hl).2.imp_right (hasList_stepped stepped)⟩
  cases stepped with
  | idle | act | wait => exact before hl
  | enter may =>
      rcases List.mem_cons.mp hl with heq | hold
      · cases heq
        obtain ⟨-, l', heq, goes, may⟩ := may
        cases heq
        exact ⟨goes, may.imp_left And.left⟩
      · exact before hold
  | leave => exact before (List.mem_of_mem_erase hl)

theorem Orderly.advance (h : Orderly d a task s) (safe : Safe d a s) (goes : task.goesOn)
    (granted : ∀ fault g, task.entry? s ≠ some (.refused fault g)) :
    Orderly d a (task.advance s).1 (task.advance s).2 := by
  have stepped := (h.stays goes).stepped safe granted
  have owns := owns_stepped stepped safe (h.owns goes)
  have grows := grows_stepped stepped
  obtain ⟨stays, -, -⟩ := (h.stays goes).advance (steady_terms _) safe
    fun fault g hentry => absurd hentry (granted fault g)
  have call := Task.call_advance task s
  constructor
  · rw [call]
    exact owns.toKnown
  · rw [call]
    exact h.aims.trans (subject_grows grows h.reaches).symm
  · rw [call]
    exact h.serves
  · rw [call]
    exact fun handle hh => reaches_grows grows (h.reaches handle hh)
  · intro _
    rw [call]
    exact owns
  · intro _
    rw [Stays, call]
    exact stays
  · intro r hr
    obtain ⟨s₀, -, ends⟩ := stays.outcome hr
    rw [call]
    exact ends
  · rcases document_stepped stepped safe with ⟨-, same⟩ | ⟨-, -, v, -, one⟩
    · exact Nat.le_trans (Nat.le_of_eq (congrArg List.length same)) h.once
    · exact Nat.le_of_eq (congrArg List.length one)
  · rw [call]
    rcases document_stepped stepped safe with ⟨-, same⟩ | ⟨inserts, -⟩
    · exact fun hne => h.inserts fun heq => hne (same.trans heq)
    · exact fun _ => inserts
  · intro n q hne
    rw [call]
    obtain ⟨more, -, heq, own⟩ := content_stepped stepped safe (h.owns goes) n q
    rw [heq] at hne
    by_cases hmore : more = []
    · rw [hmore, List.append_nil] at hne
      exact hasNode_stepped stepped (h.mine n q hne)
    · exact own hmore
  · rw [call]
    exact writes_stepped stepped h.writes
  · rw [call]
    exact h.holding

end

/-! ## Two calls -/

/-- What is known of a call and a later one. -/
structure Follows (a : Arena) (earlier later : Task Work) : Prop where
  apart : earlier.goesOn → Apart earlier.call.stake earlier.progress.trail
    later.call.stake later.progress.trail
  nested : earlier.goesOn → earlier.thread = later.thread → earlier.call.stake.holds = true
  order : earlier.thread = later.thread → ∀ e ∈ added a.statements earlier.progress.trail,
    ∀ e' ∈ added a.statements later.progress.trail, e.2 < e'.2

section

variable {d : DocumentId} {a : Arena} {task other : Task Work} {s s' : Store}

theorem Follows.advance_earlier (h : Follows a task other) (orderly : Orderly d a task s)
    (orderly' : Orderly d a other s) (safe : Safe d a s)
    (goes : task.goesOn) (granted : ∀ fault g, task.entry? s ≠ some (.refused fault g)) :
    Follows a (task.advance s).1 other := by
  have stepped := (orderly.stays goes).stepped safe granted
  constructor
  · intro _
    rw [Task.call_advance]
    exact apart_stepped stepped (h.apart goes) orderly'.known
  · intro _
    rw [Task.call_advance, Task.thread_advance]
    exact h.nested goes
  · rw [Task.thread_advance]
    intro thread e he e' he'
    rcases document_stepped stepped safe with ⟨-, same⟩ | ⟨inserts, -⟩
    · exact h.order thread e (same ▸ he) e' he'
    · -- A call that goes on while its thread has made another one holds a list.
      have := orderly.holding (h.nested goes thread)
      exact absurd (this.symm.trans inserts) Bool.false_ne_true

theorem Follows.advance_later (h : Follows a other task) (orderly : Orderly d a task s)
    (orderly' : Orderly d a other s) (safe : Safe d a s)
    (goes : task.goesOn) (granted : ∀ fault g, task.entry? s ≠ some (.refused fault g))
    (below : ∀ e ∈ added a.statements other.progress.trail,
      e.2 < (s.list a.statements).items.length) :
    Follows a other (task.advance s).1 := by
  have stepped := (orderly.stays goes).stepped safe granted
  constructor
  · intro hother
    rw [Task.call_advance]
    exact (apart_stepped stepped (h.apart hother).symm orderly'.known).symm
  · rw [Task.thread_advance]
    exact h.nested
  · rw [Task.thread_advance]
    intro thread e he e' he'
    rcases document_stepped stepped safe with ⟨-, same⟩ | ⟨-, -, v, -, one⟩
    · exact h.order thread e he e' (same ▸ he')
    · obtain rfl : e' = (v, (s.list a.statements).items.length) :=
        List.mem_singleton.mp (one ▸ he')
      exact below e he

end

end Sharing

end NinjaFile
