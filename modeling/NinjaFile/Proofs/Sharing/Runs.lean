import NinjaFile.Proofs.Sharing.Tasks

/-!
# Runs on a shared document

Any number of threads make calls on a document and go on with them in any order of steps.
A thread makes one call after the other, or several while it holds lists for reading; and
while a call is about a statement, no other call about it is begun.
-/

namespace NinjaFile

open Store

/-- The guard that a call asks for next, and what for. -/
def Task.asksFor? {κ : Type} (task : Task κ) : Option (LockId × Mode) :=
  match task.phase.program with
  | .enter lock mode _ => some (lock, mode)
  | _ => none

namespace Sharing

/-- One thing that can happen: a thread makes a call, or a call goes on by one step. -/
inductive Move where
  | start (t : ThreadId) (call : Call)
  | step (i : Nat)

/-- A thread can make the call now. -/
structure MayStart (d : DocumentId) (a : Arena) (sys : System Work) (t : ThreadId)
    (call : Call) : Prop where
  fits : call.Fits d a sys.store
  /-- The thread is in no other call, except that it holds lists. -/
  nested : ∀ task ∈ sys.tasks, task.goesOn → task.thread = t →
    task.call.stake.holds = true ∧ task.progress.inside ≠ []
  /-- No other call is about the same statement. -/
  alone : ∀ task ∈ sys.tasks, task.goesOn → ∀ n ∈ call.subject? sys.store,
    ¬ task.call.stake.HasNode task.progress.trail n

/-- The thread can ask for the guard now.  It does not write to a list that it holds.  And a
list that is not shared is not looked at in the middle of a change: its guard has no lock, so
between its steps nothing else happens. -/
def MayAsk (sys : System Work) (t : ThreadId) : LockId × Mode → Prop
  | (lock, .write) => ∀ task ∈ sys.tasks, task.thread = t → (lock, .read) ∉ task.progress.inside
  | (lock, .read) => (sys.store.guard lock).isLocking = false →
      ∀ task ∈ sys.tasks, task.thread ≠ t → (lock, .write) ∉ task.progress.inside

instance (sys : System Work) (t : ThreadId) (ask : LockId × Mode) :
    Decidable (MayAsk sys t ask) := by
  unfold MayAsk
  split <;> infer_instance

/-- The call with a number can go on now. -/
structure MayStep (sys : System Work) (i : Nat) (task : Task Work) : Prop where
  /-- The thread is in no call that it has made since. -/
  last : ∀ other ∈ sys.tasks.drop (i + 1), other.thread = task.thread → other.goesOn = false
  asks : ∀ ask ∈ task.asksFor?, MayAsk sys task.thread ask

section

variable (d : DocumentId) (a : Arena) (sys : System Work)

instance (t : ThreadId) (call : Call) : Decidable (MayStart d a sys t call) :=
  decidable_of_iff (call.Fits d a sys.store ∧
      (∀ task ∈ sys.tasks, task.goesOn → task.thread = t →
        task.call.stake.holds = true ∧ task.progress.inside ≠ []) ∧
      ∀ task ∈ sys.tasks, task.goesOn → ∀ n ∈ call.subject? sys.store,
        ¬ task.call.stake.HasNode task.progress.trail n)
    ⟨fun ⟨fits, nested, alone⟩ => ⟨fits, nested, alone⟩,
      fun h => ⟨h.fits, h.nested, h.alone⟩⟩

instance (i : Nat) (task : Task Work) : Decidable (MayStep sys i task) :=
  decidable_of_iff ((∀ other ∈ sys.tasks.drop (i + 1), other.thread = task.thread →
        other.goesOn = false) ∧ ∀ ask ∈ task.asksFor?, MayAsk sys task.thread ask)
    ⟨fun ⟨last, asks⟩ => ⟨last, asks⟩, fun h => ⟨h.last, h.asks⟩⟩

/-- What happens, if it can. -/
def next : Move → System Work
  | .start t call =>
      if MayStart d a sys t call then
        sys.start t ⟨call, call.stake sys.store⟩ call.program
      else sys
  | .step i => if ∀ task ∈ sys.tasks[i]?, MayStep sys i task then sys.step i else sys

def run (moves : List Move) : System Work := moves.foldl (next d a) sys

end

/-! ## Harmony -/

/-- What holds of a shared document and all calls on it at any time, since it was as it was
in a store. -/
structure Harmony (d : DocumentId) (a : Arena) (base : Store) (sys : System Work) : Prop where
  safe : Safe d a sys.store
  fitted : Fitted a sys.store
  accounted : Accounted sys.tasks sys.store
  each : ∀ task ∈ sys.tasks, Orderly d a task sys.store
  pairs : sys.tasks.Pairwise (Follows a)
  slots : (sys.tasks.flatMap fun task => added a.statements task.progress.trail).Perm
    (sys.store.list a.statements).items.zipIdx
  contents : ∀ n q, content sys.store n q = content base n q ++
    sys.tasks.flatMap fun task => gained n q task.progress.trail

section

variable {d : DocumentId} {a : Arena} {base : Store} {sys : System Work} {task : Task Work}
  {s : Store}

theorem Harmony.below (h : Harmony d a base sys) (hmem : task ∈ sys.tasks) :
    ∀ e ∈ added a.statements task.progress.trail,
      e.2 < (sys.store.list a.statements).items.length := by
  intro e he
  have : e ∈ (sys.store.list a.statements).items.zipIdx :=
    h.slots.subset (List.mem_flatMap.mpr ⟨task, hmem, he⟩)
  exact List.snd_lt_of_mem_zipIdx this

/-! ### A call is made -/

private theorem hasNode_start {call : Call} {n : Node} :
    (call.stake s).HasNode [] n ↔ call.subject? s = some n := by
  simp [Stake.HasNode, MadeNode, Call.stake]

private theorem hasList_start {call : Call} {l : ListId} :
    (call.stake s).HasList [] l ↔
      ∃ n, call.subject? s = some n ∧ ∃ q ∈ n.parts, s.part n q = l := by
  cases h : call.subject? s <;> simp [Stake.HasList, MadeList, Call.stake, listsOf, h]

private theorem owns_start (safe : Safe d a s) {call : Call} (fits : call.Fits d a s) :
    Owns a (call.stake s) [] s := by
  constructor
  · constructor
    · intro l hl
      obtain ⟨n, hn, q, hq, rfl⟩ := hasList_start.mp hl
      exact (safe.parts n (fits.has n hn) q hq).1
    · exact fun n hn => fits.has n (hasNode_start.mp hn)
  · intro m hm r hr
    rw [hasNode_start, hasList_start]
    constructor
    · rintro ⟨n, hn, q, hq, heq⟩
      rw [(safe.apart m n hm (fits.has n hn) r hr q hq heq.symm).1]
      exact hn
    · exact fun hn => ⟨m, hn, r, hr, rfl⟩
  · intro l hl
    obtain ⟨n, hn, q, hq, rfl⟩ := hasList_start.mp hl
    exact (safe.parts n (fits.has n hn) q hq).2

theorem holds_or_inserts (call : Call) (h : (call.stake s).holds = true) :
    (call.stake s).inserts = false := by
  cases call <;> first | rfl | cases h

private theorem orderly_start (safe : Safe d a s) {t : ThreadId} {call : Call}
    (fits : call.Fits d a s) :
    Orderly d a (.start t ⟨call, call.stake s⟩ call.program) s := by
  have stays : Stays d a (.start t ⟨call, call.stake s⟩ call.program) s := by
    refine Task.stands_start (steady_terms (call.setting d a s)) safe ?_ t _
    refine Program.wp_mono ?_ (does_call safe fits .start s rfl ⟨rfl, rfl⟩)
    rintro r g s ⟨outside, done, granted⟩
    exact ⟨outside, fun v h => (done v h).1, fun v h => (done v h).2, granted⟩
  constructor
  · exact (owns_start safe fits).toKnown
  · rfl
  · exact ⟨rfl, rfl⟩
  · exact fits.reaches
  · exact fun _ => owns_start safe fits
  · exact fun _ => stays
  · intro r hr
    obtain ⟨s₀, -, ends⟩ := stays.outcome hr
    exact ends
  · exact Nat.zero_le 1
  · exact fun h => absurd rfl h
  · exact fun n q h => absurd rfl h
  · exact nofun
  · exact holds_or_inserts call

private theorem follows_start {t : ThreadId} {call : Call} (may : MayStart d a sys t call)
    (hmem : task ∈ sys.tasks) (orderly : Orderly d a task sys.store) :
    Follows a task (.start t ⟨call, call.stake sys.store⟩ call.program) := by
  constructor
  · intro goes
    have owns := orderly.owns goes
    constructor
    · intro l hl hl'
      obtain ⟨n, hn, q, hq, rfl⟩ := hasList_start.mp hl'
      exact may.alone task hmem goes n hn ((owns.parts n (may.fits.has n hn) q hq).mp hl)
    · exact fun n hn hn' => may.alone task hmem goes n (hasNode_start.mp hn') hn
  · exact fun goes thread => (may.nested task hmem goes thread).1
  · exact fun _ _ _ e' he' => nomatch he'

theorem Harmony.start (h : Harmony d a base sys) {t : ThreadId} {call : Call}
    (may : MayStart d a sys t call) :
    Harmony d a base (sys.start t ⟨call, call.stake sys.store⟩ call.program) := by
  constructor
  · exact h.safe
  · exact h.fitted
  · intro l
    refine (h.accounted l).mono ?_ fun u => ?_
    · rintro u ⟨task, hmem, hin⟩
      exact ⟨task, List.mem_append_left _ hmem, hin⟩
    · simp [System.start, reads]
  · intro task hmem
    rcases List.mem_append.mp hmem with hold | hnew
    · exact h.each task hold
    · obtain rfl := List.mem_singleton.mp hnew
      exact orderly_start h.safe may.fits
  · refine List.pairwise_append.mpr ⟨h.pairs, List.pairwise_singleton _ _, ?_⟩
    intro task hmem later hlater
    obtain rfl := List.mem_singleton.mp hlater
    exact follows_start may hmem (h.each task hmem)
  · have := h.slots
    simpa [System.start, Task.start, added] using this
  · intro n q
    have := h.contents n q
    simpa [System.start, Task.start, gained] using this

/-! ### A call goes on -/

section

variable {earlier later : List (Task Work)} {i : Nat}

private theorem not_writes (h : Harmony d a base ⟨s, earlier ++ task :: later⟩)
    (outside : task.progress.inside = [])
    (last : ∀ other ∈ later, other.thread = task.thread → other.goesOn = false) (l : ListId) :
    ¬ Writes (earlier ++ task :: later) l task.thread := by
  rintro ⟨other, hmem, thread, hin⟩
  have orderly := h.each other hmem
  have goes : other.goesOn = true := by
    by_contra ended
    rw [orderly.outside (by simpa using ended)] at hin
    exact List.not_mem_nil hin
  simp only [List.mem_append, List.mem_cons] at hmem
  rcases hmem with hbefore | rfl | hafter
  · have follows := (List.pairwise_append.mp h.pairs).2.2 other hbefore task (by simp)
    have holds := follows.nested goes thread
    exact absurd (holds.symm.trans (orderly.writes l hin).1) nofun
  · rw [outside] at hin
    exact List.not_mem_nil hin
  · exact absurd (goes.symm.trans (last other hafter thread)) nofun

private theorem not_writes_own (h : Harmony d a base ⟨s, earlier ++ task :: later⟩)
    (goes : task.goesOn) (outside : task.progress.inside = []) {l : ListId}
    (own : task.call.stake.HasList task.progress.trail l) (u : ThreadId) :
    ¬ Writes (earlier ++ task :: later) l u := by
  rintro ⟨other, hmem, -, hin⟩
  have orderly := h.each other hmem
  have owns := (h.each task (by simp)).owns goes
  have hasList : other.call.stake.HasList other.progress.trail l :=
    (orderly.writes l hin).2.resolve_left (owns.ne l own)
  have pairs := List.pairwise_append.mp h.pairs
  have goes' : other.goesOn = true := by
    by_contra ended
    rw [orderly.outside (by simpa using ended)] at hin
    exact List.not_mem_nil hin
  simp only [List.mem_append, List.mem_cons] at hmem
  rcases hmem with hbefore | rfl | hafter
  · exact ((pairs.2.2 other hbefore task (by simp)).apart goes').lists l hasList own
  · rw [outside] at hin
    exact List.not_mem_nil hin
  · exact (((List.pairwise_cons.mp pairs.2.1).1 other hafter).apart goes).lists l own hasList

private theorem reads_eq_zero {tasks : List (Task Work)} {l : ListId} {t : ThreadId}
    (h : ∀ other ∈ tasks, other.thread = t → (.list l, .read) ∉ other.progress.inside) :
    reads tasks l t = 0 := by
  refine List.sum_eq_zero_iff_forall_eq_nat.mpr fun n hn => ?_
  obtain ⟨other, hmem, rfl⟩ := List.mem_map.mp hn
  rw [readsOf]
  split
  · next thread => exact List.count_eq_zero.mpr (h other hmem thread)
  · rfl

/-- No guard refuses a call that goes on when it may. -/
private theorem granted (h : Harmony d a base ⟨s, earlier ++ task :: later⟩)
    (goes : task.goesOn) (hi : earlier.length = i)
    (may : MayStep ⟨s, earlier ++ task :: later⟩ i task) (fault : BorrowFault) (g : Guard) :
    task.entry? s ≠ some (.refused fault g) := by
  intro hentry
  have orderly := h.each task (by simp)
  obtain ⟨lock, mode, next, hphase, ⟨outside, l, rfl, mayEnter⟩, asks⟩ :=
    (orderly.stays goes).asks h.safe hentry
  have last : ∀ other ∈ later, other.thread = task.thread → other.goesOn = false := by
    have := may.last
    subst hi
    simpa using this
  have own (has : task.call.stake.HasList task.progress.trail l) :=
    not_writes_own h goes outside has
  have mayAsk := may.asks (.list l, mode) (by rw [Task.asksFor?, hphase]; rfl)
  refine Guard.not_refused (h.accounted l) (not_writes h outside last l) ?_ ?_ asks fault rfl
  · rintro rfl
    exact reads_eq_zero mayAsk
  · rintro (cooperative | ⟨rfl, refusing⟩)
    · cases mode with
      | read =>
          rintro u ⟨other, hmem, rfl, hin⟩
          by_cases thread : other.thread = task.thread
          · exact not_writes h outside last l ⟨other, hmem, thread, hin⟩
          · exact mayAsk cooperative other hmem thread hin
      | write =>
          rcases mayEnter.2 with ⟨rfl, -⟩ | has
          · have := (h.fitted.kind a.statements).mpr h.safe.place.shared
            exact absurd (this.symm.trans cooperative) nofun
          · exact own has
    · rcases mayEnter.2 with ⟨rfl, -⟩ | has
      · exact absurd (h.fitted.blocking.symm.trans refusing) nofun
      · exact own has

/-- What others have is left alone by a step. -/
private theorem rely_others (h : Harmony d a base ⟨s, earlier ++ task :: later⟩)
    {p : Progress Store} {s' : Store} (goes : task.goesOn)
    (stepped : task.Stepped (task.call.setting d a).terms s p s') {other : Task Work}
    (hmem : other ∈ earlier ++ later) (goes' : other.goesOn) :
    Rely other.call.stake other.progress.trail s s' := by
  have pairs := List.pairwise_append.mp h.pairs
  have owns := (h.each other (by simp at hmem ⊢; tauto)).owns goes'
  refine rely_stepped stepped owns ?_
  rcases List.mem_append.mp hmem with hbefore | hafter
  · exact (pairs.2.2 other hbefore task (by simp)).apart goes'
  · exact (((List.pairwise_cons.mp pairs.2.1).1 other hafter).apart goes).symm

/-- What calls have appended is what the document holds, after a step as well. -/
private theorem slots_advance (h : Harmony d a base ⟨s, earlier ++ task :: later⟩)
    (goes : task.goesOn) (granted : ∀ fault g, task.entry? s ≠ some (.refused fault g)) :
    ((earlier ++ (task.advance s).1 :: later).flatMap
        fun task => added a.statements task.progress.trail).Perm
      ((task.advance s).2.list a.statements).items.zipIdx := by
  have slots := h.slots
  have stepped := ((h.each task (by simp)).stays goes).stepped h.safe granted
  rcases document_stepped stepped h.safe with ⟨items, same⟩ | ⟨-, first, v, items, one⟩
  · change ((task.advance s).2.list a.statements).items = (s.list a.statements).items at items
    change added a.statements (task.advance s).1.progress.trail =
      added a.statements task.progress.trail at same
    rw [items]
    simpa [same] using slots
  · change ((task.advance s).2.list a.statements).items = (s.list a.statements).items ++ [v] at items
    change added a.statements (task.advance s).1.progress.trail =
      [(v, (s.list a.statements).items.length)] at one
    change added a.statements task.progress.trail = [] at first
    simp only [List.flatMap_append, List.flatMap_cons, first, List.nil_append] at slots
    simp only [List.flatMap_append, List.flatMap_cons, one, items, List.zipIdx_append,
      List.zipIdx_singleton, Nat.zero_add]
    refine .trans ?_ (slots.append_right _)
    rw [List.append_assoc]
    exact .append_left _ List.perm_append_comm

/-- Statements hold what calls have added, in the order of the calls, after a step as
well. -/
private theorem contents_advance (h : Harmony d a base ⟨s, earlier ++ task :: later⟩)
    (goes : task.goesOn) (granted : ∀ fault g, task.entry? s ≠ some (.refused fault g))
    (n : Node) (q : Part) :
    content (task.advance s).2 n q = content base n q ++
      (earlier ++ (task.advance s).1 :: later).flatMap
        fun task => gained n q task.progress.trail := by
  have contents := h.contents n q
  have orderly := h.each task (by simp)
  have stepped := (orderly.stays goes).stepped h.safe granted
  obtain ⟨more, hcontent, hgained, own⟩ :=
    content_stepped stepped h.safe (orderly.owns goes) n q
  change gained n q (task.advance s).1.progress.trail = _ at hgained
  rw [hcontent, contents]
  by_cases hmore : more = []
  · subst hmore
    simp [hgained]
  · -- Later calls have added nothing to what this call has to itself.
    have nothing : (later.flatMap fun other => gained n q other.progress.trail) = [] := by
      rw [List.flatMap_eq_nil_iff]
      intro other hmem
      by_contra hne
      have other_mine := (h.each other (by simp [hmem])).mine n q hne
      have pairs := (List.pairwise_append.mp h.pairs).2.1
      have apart := ((List.pairwise_cons.mp pairs).1 other hmem).apart goes
      have apart' := apart_stepped stepped apart (h.each other (by simp [hmem])).known
      exact apart'.nodes n (own hmore) other_mine
    simp [hgained, nothing]

/-- One step of a call keeps everything in harmony. -/
private theorem harmony_advance (h : Harmony d a base ⟨s, earlier ++ task :: later⟩)
    (goes : task.goesOn) (granted : ∀ fault g, task.entry? s ≠ some (.refused fault g)) :
    Harmony d a base ⟨(task.advance s).2, earlier ++ (task.advance s).1 :: later⟩ := by
  have orderly := h.each task (by simp)
  have stepped := (orderly.stays goes).stepped h.safe granted
  have grows := grows_stepped stepped
  have pairs := List.pairwise_append.mp h.pairs
  have after := List.pairwise_cons.mp pairs.2.1
  constructor
  · exact ((orderly.stays goes).advance (steady_terms _) h.safe
      fun fault g hentry => absurd hentry (granted fault g)).2.1
  · exact h.fitted.stepped h.safe.place stepped
  · exact h.accounted.stepped (Task.thread_advance task s) stepped
  · intro other hmem
    simp only [List.mem_append, List.mem_cons] at hmem
    rcases hmem with hbefore | rfl | hafter
    · exact (h.each other (by simp [hbefore])).rely grows
        (rely_others h goes stepped (by simp [hbefore]))
    · exact orderly.advance h.safe goes granted
    · exact (h.each other (by simp [hafter])).rely grows
        (rely_others h goes stepped (by simp [hafter]))
  · refine List.pairwise_append.mpr ⟨pairs.1, List.pairwise_cons.mpr ⟨?_, after.2⟩, ?_⟩
    · intro other hmem
      exact (after.1 other hmem).advance_earlier orderly (h.each other (by simp [hmem]))
        h.safe goes granted
    · intro other hbefore later' hlater
      rcases List.mem_cons.mp hlater with rfl | hlater
      · exact (pairs.2.2 other hbefore task (by simp)).advance_later orderly
          (h.each other (by simp [hbefore])) h.safe goes granted
          (h.below (by simp [hbefore]))
      · exact pairs.2.2 other hbefore later' (by simp [hlater])
  · exact slots_advance h goes granted
  · exact contents_advance h goes granted

theorem Harmony.step (h : Harmony d a base sys) {i : Nat}
    (may : ∀ task ∈ sys.tasks[i]?, MayStep sys i task) : Harmony d a base (sys.step i) := by
  rw [System.step]
  split
  · exact h
  · next task htask =>
      obtain ⟨s, tasks⟩ := sys
      obtain ⟨hi, rfl⟩ := List.getElem?_eq_some_iff.mp htask
      obtain ⟨earlier, later, heq, hlength, hset⟩ :=
        @List.exists_of_set _ i (tasks[i].advance s).1 tasks hi
      generalize tasks[i] = task at heq hset htask
      subst heq
      change Harmony d a base ⟨(task.advance s).2, (earlier ++ task :: later).set i _⟩
      rw [hset]
      cases hgoes : task.goesOn with
      | false =>
          obtain ⟨r, hr⟩ := Task.outcome_of_ended hgoes
          rw [Task.advance_of_outcome hr]
          exact h
      | true => exact harmony_advance h hgoes (granted h hgoes hlength (may task htask))

theorem Harmony.next (h : Harmony d a base sys) (move : Move) :
    Harmony d a base (next d a sys move) := by
  cases move with
  | start t call =>
      rw [Sharing.next]
      split
      · next may => exact h.start may
      · exact h
  | step i =>
      rw [Sharing.next]
      split
      · next may => exact h.step may
      · exact h

theorem Harmony.run (h : Harmony d a base sys) (moves : List Move) :
    Harmony d a base (run d a sys moves) := by
  induction moves generalizing sys with
  | nil => exact h
  | cons move rest ih => exact ih (h.next move)

end

end

end Sharing

end NinjaFile
