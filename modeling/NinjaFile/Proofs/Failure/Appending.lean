import NinjaFile.Proofs.Failure.Adopting
import NinjaFile.Proofs.Program.Among
import NinjaFile.Proofs.Sharing.Inserting
import NinjaFile.Script.Calling

/-!
# Appending, to the end or not

What is appended takes on the ownership of its arena list by list, goes to the end of the
arena, and is then told of in a log line.  Nothing of this is taken back when a later part
fails: the lists that have changed ownership keep it, and what was appended stays.
-/

namespace NinjaFile

open Program Store

/-! ## Log lines that can be written -/

namespace Arena

/-- The ownership that things take on in an arena. -/
def given (a : Arena) (s : Store) : Value :=
  (s.assigned? (Object.arena a).identity "ownership").getD (.ownership a.ownership)

/-- The line that tells of `v` can be written: `v` is of one of the kinds there are, and
nobody has tampered with where the arena logs. -/
structure Tells (a : Arena) (v : Value) (s : Store) : Prop where
  kind : ∃ k, v.stored? s "kind" = some (.kind k)
  logger : s.assigned? (Object.arena a).identity "logger" = none
  plain : ∀ view, a.view = some view → view.isPlain s

variable {a : Arena} {v : Value} {s s' : Store}

theorem field?_kind (v : Value) (s s' : Store) : v.field? s' "kind" = v.field? s "kind" := by
  cases v with
  | object o => cases o <;> rfl
  | _ => rfl

theorem Tells.congr (h : a.Tells v s) (same : ∀ i name, name ≠ "blocking" →
    (∀ q : Part, name ≠ q.name) → s'.assigned? i name = s.assigned? i name) : a.Tells v s' := by
  have part (q : Part) : q.name ∈ ["variables", "outputs", "implicit_outputs", "dependencies",
      "implicit_dependencies", "order_only_dependencies", "validations"] := by
    cases q with
    | bindings => decide
    | paths slot => cases slot <;> decide
  have same (i : Identity) (name : String) (blocking : name ≠ "blocking")
      (other : name ∉ ["variables", "outputs", "implicit_outputs", "dependencies",
        "implicit_dependencies", "order_only_dependencies", "validations"]) :
      s'.assigned? i name = s.assigned? i name :=
    same i name blocking fun q heq => other (heq ▸ part q)
  constructor
  · obtain ⟨k, hk⟩ := h.kind
    refine ⟨k, ?_⟩
    rw [← hk, Value.stored?, Value.stored?, field?_kind v s s']
    simp only [same _ "kind" (by decide) (by decide)]
  · rw [same _ _ (by decide) (by decide)]
    exact h.logger
  · intro view hview
    have plain := h.plain view hview
    rw [View.isPlain] at plain ⊢
    rwa [same _ _ (by decide) (by decide), same _ _ (by decide) (by decide)]

theorem Tells.alike (h : a.Tells v s) (like : s.Alike s') : a.Tells v s' :=
  h.congr fun i name _ _ => like.assigned?_eq i name

end Arena

/-! ## Appending -/

section Appending

variable {a : Arena} {v : Value} {s₀ s : Store} {g : Progress Store}

theorem wp_kindOf {Q : Except Fault Value → Progress Store → Store → Prop} {k : Kind}
    (kind : v.stored? s₀ "kind" = some (.kind k)) (like : s₀.Alike s)
    (h : ∀ g s, s₀.Alike s → Q (.ok (.kind k)) g s) : v.kindOf.wp calm Q g s := by
  rw [Sharing.kindOf_eq, Value.storedMember, wp_read_bind]
  intro s₁ between _
  have like₁ := like.trans between
  refine ⟨trivial, trivial, ?_⟩
  rw [like₁.stored?_eq v (by decide) (by decide), kind]
  exact h _ _ like₁

theorem wp_logAppended (tells : a.Tells v s₀) (like : s₀.Alike s) (index : Nat) :
    (a.logAppended v index).wp calm (fun res _ s' => res = .ok () ∧ s₀.Alike s') g s := by
  obtain ⟨k, kind⟩ := tells.kind
  have logs (view : Option View) (plain : ∀ w, view = some w → w.isPlain s₀) {level : Int}
      {text : String} {g : Progress Store} {s : Store} (like : s₀.Alike s) :
      (logBy view level text).wp calm (fun res _ s' => res = .ok () ∧ s₀.Alike s') g s := by
    cases view with
    | none => exact ⟨rfl, like⟩
    | some view =>
        rw [logBy, View.log, wp_read_bind]
        intro s₁ between _
        have plain : view.isPlain s₁ = true := by
          rw [View.isPlain, (like.trans between).assigned?_eq, (like.trans between).assigned?_eq]
          exact plain view rfl
        refine ⟨trivial, trivial, ?_⟩
        rw [if_pos plain]
        intro s₂ between' _
        exact ⟨trivial, trivial, rfl, (like.trans between).trans (between'.trans
          (.of_lists rfl rfl rfl rfl rfl rfl))⟩
  have word (view : Option View) (plain : ∀ w, view = some w → w.isPlain s₀) {g : Progress Store}
      {s : Store} (like : s₀.Alike s) :
      (v.kindWord >>= fun word => logBy view Logging.debugLevel
        ("Appended " ++ word ++ " statement at index " ++ toString index)).wp calm
          (fun res _ s' => res = .ok () ∧ s₀.Alike s') g s := by
    rw [wp_bind, Value.kindWord, wp_bind]
    exact wp_kindOf kind like fun g s like => logs view plain like
  change Program.wp _ _ (Action.read _ >>= _ >>= _) _ _
  rw [wp_bind, wp_read_bind]
  intro s₁ between _
  have like₁ := like.trans between
  have logger : (Value.object (.arena a)).stored? s₁ "logger" = some a.logger := by
    rw [Value.stored?_object, (tells.alike like₁).logger]
    rfl
  refine ⟨trivial, trivial, ?_⟩
  rw [logger]
  change Program.wp _ _ (Program.ofExcept _ >>= _) _ _
  rw [wp_bind, wp_ofExcept, Arena.logger]
  cases hview : a.view with
  | none => exact word none (fun _ h => by cases h) like₁
  | some view => exact word (some view) (fun w h => Option.some.inj h ▸ tells.plain view hview) like₁

/-- What is appended takes on the ownership, or its lists do up to the first that cannot. -/
theorem wp_arenaAdopt (nodes : ∀ n, v.node? = some n → s.HasNode n)
    (lists : ∀ x ∈ v.seats, ∀ l, s.seated x = .object (.list l) → l.index < s.lists.size) :
    (a.adopt v).wp calm (fun res _ s' =>
      (res = .ok () ∧ s.Adopted (a.given s) v.seats s') ∨
        ∃ fault done, res = .error fault ∧ done <+: v.seats ∧
          s.Adopted (a.given s) done s') g s := by
  rw [Arena.adopt]
  cases hv : v.node? with
  | none =>
      refine .inl ⟨rfl, ?_⟩
      rw [Value.seats, hv]
      exact .refl s _
  | some n =>
      have seats : v.seats = n.parts.map (Prod.mk n) := by rw [Value.seats, hv]
      change Program.wp _ _ (Action.read _ >>= _ >>= _) _ _
      rw [wp_bind, wp_read_bind]
      intro s₁ between _
      have found : (Value.object (.arena a)).stored? s₁ "ownership" = some (a.given s) := by
        rw [Value.stored?_object, between.assigned?_eq, Arena.given]
        cases s.assigned? (Object.arena a).identity "ownership" <;> rfl
      refine ⟨trivial, trivial, ?_⟩
      rw [found]
      change Program.wp _ _ (n.adopt (a.given s)) _ _
      have start : s.Adopted (a.given s) (([] : List Part).map (Prod.mk n)) s₁ :=
        (Adopted.refl s _).alike between
      refine wp_mono ?_ (wp_adoptParts (nodes n hv) ?_ (List.nil_append _).symm start)
      · rintro res g s' (⟨rfl, adopted⟩ | ⟨fault, before, q, after, rfl, split, adopted⟩)
        · exact .inl ⟨rfl, seats ▸ adopted⟩
        · refine .inr ⟨fault, _, rfl, ?_, adopted⟩
          rw [seats, split, List.map_append]
          exact List.prefix_append _ _
      · intro q hq l hl
        refine lists (n, q) ?_ l hl
        rw [seats]
        exact List.mem_map_of_mem hq

/-- How appending `v` ends. -/
def Arena.Appends (a : Arena) (v : Value) (s : Store) (res : Except Fault Value) (s' : Store) :
    Prop :=
  match res with
  | .ok i => i = .int (s.list a.statements).items.length ∧
      ∃ s₁, s.Adopted (a.given s) v.seats s₁ ∧
        (s₁.modifyList a.statements (·.append [v])).Alike s'
  | .error _ =>
      (∃ done, done <+: v.seats ∧ s.Adopted (a.given s) done s') ∨
        ¬ a.Tells v s ∧ ∃ s₁, s.Adopted (a.given s) v.seats s₁ ∧
          (s₁.modifyList a.statements (·.append [v])).Alike s'

private theorem wp_append (nodes : ∀ n, v.node? = some n → s.HasNode n)
    (lists : ∀ x ∈ v.seats, ∀ l, s.seated x = .object (.list l) → l.index < s.lists.size)
    (known : a.statements.index < s.lists.size) :
    (do return Value.int (← a.append v) : Action Value).wp calm
      (fun res _ s' => a.Appends v s res s') g s := by
  change Program.wp _ _ (a.adopt v >>= _ >>= _) _ _
  rw [wp_bind, wp_bind]
  refine wp_mono ?_ (wp_arenaAdopt nodes lists)
  rintro res g s₁ (⟨rfl, adopted⟩ | ⟨fault, done, rfl, prefixes, adopted⟩)
  · change Program.wp _ _ (a.statements.add v >>= _) _ _
    rw [wp_bind, ListId.add, wp_guarded]
    intro s₂ between₂ _
    have adopted₂ := adopted.alike between₂
    refine ⟨trivial, ?_, fun _ fault => .inl ⟨v.seats, List.prefix_rfl, adopted₂⟩⟩
    rw [wp_update]
    intro s₃ between₃ _
    have adopted₃ := adopted₂.alike between₃
    refine ⟨trivial, trivial, ?_⟩
    have length : (s₃.list a.statements).items.length = (s.list a.statements).items.length := by
      rw [adopted₃.items _ known]
    change Program.wp _ _ (a.logAppended v _ >>= _) _ _
    rw [wp_bind, length]
    have like := Alike.refl (s₃.modifyList a.statements (·.append [v]))
    by_cases tells : a.Tells v s
    · have tells₃ : a.Tells v (s₃.modifyList a.statements (·.append [v])) :=
        tells.congr fun i name blocking part => adopted₃.assigned i name blocking part
      refine wp_mono ?_ (wp_logAppended tells₃ like _)
      rintro res g s' ⟨rfl, like'⟩
      exact ⟨rfl, s₃, adopted₃, like'⟩
    · refine wp_mono ?_ (wp_alike (quiet_logAppended a v _).alike like)
      intro res g s' like'
      cases res with
      | ok _ => exact ⟨rfl, s₃, adopted₃, like'⟩
      | error fault => exact .inr ⟨tells, s₃, adopted₃, like'⟩
  · exact .inl ⟨done, prefixes, adopted⟩

end Appending

namespace Arena

variable {a : Arena} {v : Value} {s s' : Store} {κ : Type}

/-- However guards are used by others meanwhile, appending that returns has given `v` the
ownership of the arena and put it at the end, where its index leads to.  If it fails, then
`v` is not in the arena, no list that there was has anything more or less, and each list of
`v` is still the same, or it is one of the first of them, which have given way to copies
with the ownership of the arena; only a log line that cannot be written comes too late for
that.  The call has left all guards. -/
theorem appended_or_failed {t : ThreadId} {call : κ} {task : Task κ}
    (nodes : ∀ n, v.node? = some n → s.HasNode n)
    (lists : ∀ x ∈ v.seats, ∀ l, s.seated x = .object (.list l) → l.index < s.lists.size)
    (known : a.statements.index < s.lists.size)
    (run : Task.Among Store.Alike (.start t call do return .int (← a.append v)) s task s')
    {res : Except Fault Value} (ended : task.outcome? = some res) :
    task.progress.inside = [] ∧
      match res with
      | .ok i => i = .int (s.list a.statements).items.length ∧
          ∃ s₁, s.Adopted (a.given s) v.seats s₁ ∧
            (s₁.modifyList a.statements (·.append [v])).Alike s'
      | .error _ =>
          (∃ done, done <+: v.seats ∧ s.Adopted (a.given s) done s') ∨
            ¬ a.Tells v s ∧ ∃ s₁, s.Adopted (a.given s) v.seats s₁ ∧
              (s₁.modifyList a.statements (·.append [v])).Alike s' := by
  have tame : Action.Tame false (do return Value.int (← a.append v) : Action Value) :=
    tame_bind (tame_arenaAppend a v) fun _ => tame_pure _
  refine ⟨run.left_guards tame.disciplined ended, ?_⟩
  obtain ⟨s₀, like, ends⟩ := run.outcome steady_calm trivial
    (fun _ _ _ change => ⟨fun _ => change, trivial⟩) (wp_append nodes lists known) trivial ended
  cases res with
  | ok i =>
      obtain ⟨hi, s₁, adopted, added⟩ := ends
      exact ⟨hi, s₁, adopted, added.trans like⟩
  | error fault =>
      rcases ends with ⟨done, prefixes, adopted⟩ | ⟨tells, s₁, adopted, added⟩
      · exact .inl ⟨done, prefixes, adopted.alike like⟩
      · exact .inr ⟨tells, s₁, adopted, added.trans like⟩

/-- An arena that nothing has been appended to. -/
def vacant : Arena := ⟨.shared, ⟨8⟩, none⟩

/-- A build beside a vacant arena, while somebody writes to its third list. -/
def contended : Store :=
  let makes : Action Arena := do
    let r ← RuleId.make (.text "r") (.text "c") (.ownership .single)
    let _ ← BuildId.make (.object (.rule r)) (.text "o") (.ownership .single)
    Arena.make .shared none
  (makes.alone (.ofFiles ⟨[], []⟩)).2.setGuard (.list ⟨3⟩) (.cooperative true)

/-- The build is appended. -/
def halted : Task Unit × Store :=
  Task.move^[20] (.start 0 () do return .int (← vacant.append (.object (.build ⟨0⟩))), contended)

theorem appended_or_failed_halted :
    halted.1.outcome? = some (.error (.borrow .readInWrite)) ∧ halted.1.progress.inside = [] ∧
      ∃ done, done <+: (Value.object (.build ⟨0⟩)).seats ∧
        contended.Adopted (vacant.given contended) done halted.2 := by
  have ended : halted.1.outcome? = some (.error (.borrow .readInWrite)) := rfl
  have node : ∀ n, (Value.object (.build ⟨0⟩)).node? = some n → contended.HasNode n := by
    intro n hn
    obtain rfl : Node.build ⟨0⟩ = n := Option.some.inj hn
    exact (by decide +kernel : (0 : Nat) < contended.builds.size)
  have lists : ∀ x ∈ (Value.object (.build ⟨0⟩)).seats, ∀ l,
      contended.seated x = .object (.list l) → l.index < contended.lists.size := by
    intro x hx l hl
    have known : ∀ x ∈ (Value.object (.build ⟨0⟩)).seats,
        (contended.part x.1 x.2).index < contended.lists.size := by decide +kernel
    rw [seated_eq rfl] at hl
    cases hl
    exact known x hx
  have failed := appended_or_failed node lists (by decide +kernel : vacant.statements.index < _)
    (Task.Among.moves _ _ _ 20) ended
  refine ⟨ended, failed.1, failed.2.resolve_right fun h => h.1 ?_⟩
  exact ⟨⟨.build, rfl⟩, rfl, fun _ h => by cases h⟩

/-- What has failed has nevertheless replaced the first list of the build by a shared one. -/
theorem halted_moves_first :
    halted.1.outcome? = some (.error (.borrow .readInWrite)) ∧
      contended.part (.build ⟨0⟩) (.paths .outputs) = ⟨1⟩ ∧
      halted.2.part (.build ⟨0⟩) (.paths .outputs) = ⟨9⟩ ∧
      (contended.list ⟨1⟩).ownership = .single ∧ (halted.2.list ⟨9⟩).ownership = .shared := by
  refine ⟨rfl, ?_, ?_, ?_, ?_⟩ <;> decide +kernel

end Arena

end NinjaFile
