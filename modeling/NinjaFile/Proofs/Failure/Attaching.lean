import NinjaFile.Proofs.Document.Content
import NinjaFile.Proofs.Program.Among
import NinjaFile.Proofs.Store.Alike
import NinjaFile.Script.Calling

/-!
# Attaching bindings, to the end or not

A method that attaches bindings attaches all of them, in their order, if it returns.  If it
fails it has attached nothing, unless it is one of the two methods that attach two bindings:
these attach them one after the other, and what fails at the second one leaves the first.
-/

namespace NinjaFile

open Program Store

/-! ## Methods that attach bindings -/

namespace Script

inductive Binder where
  | binding (name value : Value)
  | depfile (v : Value)
  | depsGcc
  | depsMsvc
  | depsMsvcPrefix (v : Value)
  | description (v : Value)
  | generator
  | inNewline (v : Value)
  | restat
  | rspfile (file content : Value)
  | poolConsole
  | pool (v : Value)
  | dyndep (v : Value)

namespace Binder

def program (r : Receiver) : Binder → Action Unit
  | .binding name value => r.attach [(name, value)]
  | .depfile v => r.attach (.depfile v)
  | .depsGcc => r.attach .depsGcc
  | .depsMsvc => r.attach .depsMsvc
  | .depsMsvcPrefix v => r.attach (.depsMsvcPrefix v)
  | .description v => r.attach (.description v)
  | .generator => r.attach .generator
  | .inNewline v => r.attach (.inNewline v)
  | .restat => r.attach .restat
  | .rspfile file content => r.attach (.rspfile file content)
  | .poolConsole => r.attach .poolConsole
  | .pool v => r.usePool v
  | .dyndep v => r.attach (.dyndep v)

def methodName : Binder → String
  | .binding .. => "variable"
  | .depfile _ => "depfile"
  | .depsGcc => "deps_gcc"
  | .depsMsvc => "deps_msvc"
  | .depsMsvcPrefix _ => "deps_msvc_prefix"
  | .description _ => "description"
  | .generator => "generator"
  | .inNewline _ => "in_newline"
  | .restat => "restat"
  | .rspfile .. => "rspfile"
  | .poolConsole => "pool_console"
  | .pool _ => "pool"
  | .dyndep _ => "dyndep"

def arguments : Binder → List Value
  | .binding name value => [name, value]
  | .depsGcc | .depsMsvc | .generator | .restat | .poolConsole => []
  | .rspfile file content => [file, content]
  | .depfile v | .depsMsvcPrefix v | .description v | .inNewline v | .pool v | .dyndep v => [v]

/-- Everything takes bindings, pools take no others, and a dyndep file is for builds. -/
def fits : Binder → Mixin → Bool
  | .binding .., _ => true
  | _, .variables => false
  | .dyndep _, m => m = .buildVariables
  | _, _ => true

theorem exists_method (b : Binder) {o : Object} {r : Receiver} {m : Mixin}
    (receiver : o.receiver? = some r) (mixin : mixin? o = some m) (fits : b.fits m) :
    ∃ method ∈ attachmentMethods o, method.name = b.methodName ∧
      method.run b.arguments = chained o (b.program r) := by
  have forAny {method : Callable} (h : method ∈ variablesMethods o r) :
      method ∈ attachmentMethods o := by
    cases m <;> simp [attachmentMethods, receiver, mixin, h]
  have forRule (hm : m ≠ .variables) (n : Nat) {method : Callable}
      (h : (ruleVariablesMethods o r)[n]? = some method) : method ∈ attachmentMethods o := by
    have mem := List.mem_of_getElem? h
    cases m <;> simp_all [attachmentMethods]
  have forBuild (hm : m = .buildVariables) (n : Nat) {method : Callable}
      (h : (buildVariablesMethods o r)[n]? = some method) : method ∈ attachmentMethods o := by
    have mem := List.mem_of_getElem? h
    simp_all [attachmentMethods]
  have rule (hm : b.fits .variables = false) : m ≠ .variables := by
    rintro rfl
    simp [hm] at fits
  cases b with
  | binding name value => exact ⟨_, forAny (.head _), rfl, rfl⟩
  | depfile v => exact ⟨_, forRule (rule rfl) 0 rfl, rfl, rfl⟩
  | depsGcc => exact ⟨_, forRule (rule rfl) 1 rfl, rfl, rfl⟩
  | depsMsvc => exact ⟨_, forRule (rule rfl) 2 rfl, rfl, rfl⟩
  | depsMsvcPrefix v => exact ⟨_, forRule (rule rfl) 3 rfl, rfl, rfl⟩
  | description v => exact ⟨_, forRule (rule rfl) 4 rfl, rfl, rfl⟩
  | generator => exact ⟨_, forRule (rule rfl) 5 rfl, rfl, rfl⟩
  | inNewline v => exact ⟨_, forRule (rule rfl) 6 rfl, rfl, rfl⟩
  | restat => exact ⟨_, forRule (rule rfl) 7 rfl, rfl, rfl⟩
  | rspfile file content => exact ⟨_, forRule (rule rfl) 8 rfl, rfl, rfl⟩
  | poolConsole => exact ⟨_, forRule (rule rfl) 9 rfl, rfl, rfl⟩
  | pool v => exact ⟨_, forRule (rule rfl) 10 rfl, rfl, rfl⟩
  | dyndep v =>
      have build : m = .buildVariables := by cases m <;> first | rfl | cases fits
      exact ⟨_, forBuild build 5 rfl, rfl, rfl⟩

/-- The names and the values of the bindings a binder is there to attach, in their order. -/
def declared (s : Store) : Binder → Except Fault Attachment
  | .binding name value => .ok [(name, value)]
  | .depfile v => .ok [(.text "depfile", v)]
  | .depsGcc => .ok [(.text "deps", .text "gcc")]
  | .depsMsvc => .ok [(.text "deps", .text "msvc")]
  | .depsMsvcPrefix v => .ok [(.text "deps", .text "msvc"), (.text "msvc_deps_prefix", v)]
  | .description v => .ok [(.text "description", v)]
  | .generator => .ok [(.text "generator", .text "1")]
  | .inNewline v => .ok [(.text "in_newline", v)]
  | .restat => .ok [(.text "restat", .text "1")]
  | .rspfile file content => .ok [(.text "rspfile", file), (.text "rspfile_content", content)]
  | .poolConsole => .ok [(.text "pool", .text "console")]
  | .pool v => do return [(.text "pool", ← (v.member "name").seen s)]
  | .dyndep v => .ok [(.text "dyndep", v)]

end Binder

end Script

namespace Attachment

/-- The bindings that are meant, if all names and values have texts. -/
def toBindings : Attachment → Except Fault (List Binding)
  | [] => .ok []
  | (name, value) :: rest => do
      let name ← name.toArgument
      let value ← value.toArgument
      return ⟨name, value⟩ :: (← toBindings rest)

theorem toBindings_cons (head : Value × Value) (rest : Attachment) :
    toBindings (head :: rest) = do
      let first ← toBindings [head]
      return first ++ (← toBindings rest) := by
  obtain ⟨name, value⟩ := head
  simp only [toBindings]
  cases name.toArgument with
  | error fault => rfl
  | ok name =>
      cases value.toArgument with
      | error fault => rfl
      | ok value => cases toBindings rest <;> rfl

end Attachment

namespace Script.Binder

/-- The bindings a binder is there to attach. -/
def bindings (s : Store) (b : Binder) : Except Fault (List Binding) := do
  (← b.declared s).toBindings

/-- The first one of two bindings, if it has a text. -/
def early? : Binder → Option Binding
  | .depsMsvcPrefix _ => some ⟨"deps", "msvc"⟩
  | .rspfile file _ => file.toArgument.toOption.map fun text => ⟨"rspfile", text⟩
  | _ => none

end Script.Binder

/-! ## Stores with more bindings -/

namespace Store

/-- The store with some bindings more at the end of a list, and otherwise alike. -/
def Bound (s : Store) (l : ListId) (bs : List Binding) (s' : Store) : Prop :=
  ∃ items : List Value, items.map Value.line? = bs.map (some ∘ BlockLine.binding) ∧
    (s.modifyList l (·.append items)).Alike s'

variable {s s₁ s' : Store} {l : ListId} {bs : List Binding}

theorem Alike.append (h : s.Alike s') (l : ListId) (items : List Value) :
    (s.modifyList l (·.append items)).Alike (s'.modifyList l (·.append items)) where
  size := by
    rw [size_modifyList, size_modifyList]
    exact h.size
  items j := by rw [items_append_eq, items_append_eq, h.items, h.size]
  ownership j := by
    have same (t : Store) : ((t.modifyList l (·.append items)).list j).ownership =
        (t.list j).ownership := by
      rw [list_modifyList]
      split <;> rfl
    rw [same, same, h.ownership]
  rules := h.rules
  builds := h.builds
  pools := h.pools
  documents := h.documents
  assigned := h.assigned

theorem bound_nil : s.Bound l [] s' ↔ s.Alike s' := by
  have same (j : ListId) : (s.modifyList l (·.append [])).list j = s.list j := by
    rw [list_modifyList]
    split <;> simp [GuardedList.append]
  constructor
  · rintro ⟨items, lines, like⟩
    obtain rfl : items = [] := by simpa using lines
    refine ⟨?_, fun j => ?_, fun j => ?_, like.rules, like.builds, like.pools, like.documents,
      like.assigned⟩
    · rw [like.size, size_modifyList]
    · rw [like.items, same]
    · rw [like.ownership, same]
  · intro h
    refine ⟨[], rfl, ?_, fun j => ?_, fun j => ?_, h.rules, h.builds, h.pools, h.documents,
      h.assigned⟩
    · rw [h.size, size_modifyList]
    · rw [h.items, same]
    · rw [h.ownership, same]

theorem Bound.snoc (h : s.Bound l bs s₁) {v : Value} {b : Binding}
    (line : v.line? = some (.binding b)) (like : (s₁.modifyList l (·.append [v])).Alike s') :
    s.Bound l (bs ++ [b]) s' := by
  obtain ⟨items, lines, before⟩ := h
  refine ⟨items ++ [v], by simp [lines, line], Alike.trans ?_ ((before.append l [v]).trans like)⟩
  refine ⟨by simp, fun j => ?_, fun j => ?_, rfl, rfl, rfl, rfl, rfl⟩
  · simp only [items_append_eq, size_modifyList]
    split <;> simp
  · simp only [list_modifyList, size_modifyList]
    split <;> simp [GuardedList.append]

theorem Bound.items (h : s.Bound l bs s') (hl : l.index < s.lists.size) :
    ∃ items : List Value, items.map Value.line? = bs.map (some ∘ BlockLine.binding) ∧
      (s'.list l).items = (s.list l).items ++ items := by
  obtain ⟨items, lines, like⟩ := h
  refine ⟨items, lines, ?_⟩
  rw [like.items, items_append_eq, if_pos ⟨rfl, hl⟩]

theorem Bound.others (h : s.Bound l bs s') {j : ListId} (hj : j ≠ l) :
    (s'.list j).items = (s.list j).items := by
  obtain ⟨items, -, like⟩ := h
  rw [like.items, items_append_eq, if_neg (fun heq => hj heq.1.symm)]

end Store

/-! ## What is attached to -/

/-- A receiver stands for a node, whose bindings are in a list that it is not looked up in. -/
structure Receiver.Holds (r : Receiver) (s : Store) (n : Node) (l : ListId) : Prop where
  node : r.resolve.seen s = .ok n
  list : s.partValue n .bindings = .object (.list l)
  known : l.index < s.lists.size
  apart : ∀ items, r.resolve.seen (s.modifyList l (·.append items)) = .ok n

theorem Receiver.holds_node {s : Store} {n : Node} {l : ListId}
    (list : s.partValue n .bindings = .object (.list l)) (known : l.index < s.lists.size) :
    (Receiver.node n).Holds s n l :=
  ⟨rfl, list, known, fun _ => rfl⟩

/-! ## Attaching -/

section Attaching

variable {r : Receiver} {s₀ s : Store} {g : Progress Store} {n : Node} {l : ListId}
  {name value : Value}

theorem wp_makeBinding (like : s₀.Alike s) :
    (makeBinding name value).wp calm (fun res _ s' => s₀.Alike s' ∧
      ((∃ serial b, res = .ok (.object (.binding serial b)) ∧
          Attachment.toBindings [(name, value)] = .ok [b]) ∨
        ∃ fault, res = .error fault ∧ Attachment.toBindings [(name, value)] = .error fault)) g s := by
  rw [makeBinding, wp_bind, wp_ofExcept]
  cases hname : name.toArgument with
  | error fault => exact ⟨like, .inr ⟨fault, rfl, by simp [Attachment.toBindings, hname]; rfl⟩⟩
  | ok text =>
      change Program.wp _ _ _ _ _
      rw [wp_bind, wp_ofExcept]
      cases hvalue : value.toArgument with
      | error fault => exact ⟨like, .inr ⟨fault, rfl, by simp [Attachment.toBindings, hname, hvalue]; rfl⟩⟩
      | ok content =>
          intro s₁ between _
          refine ⟨trivial, trivial, like.trans (between.trans (.of_lists rfl rfl rfl rfl rfl rfl)), ?_⟩
          exact .inl ⟨_, _, rfl, by simp [Attachment.toBindings, hname, hvalue]; rfl⟩

theorem wp_addItem (like : s₀.Alike s) (item : Value) :
    ((Value.object (.list l)).add item).wp calm (fun res _ s' =>
      (res = .ok () ∧ (s₀.modifyList l (·.append [item])).Alike s') ∨
        ∃ fault, res = .error fault ∧ fault.isBorrow ∧ s₀.Alike s') g s := by
  change (l.add item >>= fun _ => Pure.pure ()).wp calm _ g s
  rw [wp_bind, ListId.add, wp_guarded]
  intro s₁ between₁ _
  refine ⟨trivial, ?_, fun _ fault => .inr ⟨_, rfl, rfl, like.trans between₁⟩⟩
  rw [wp_update]
  intro s₂ between₂ _
  refine ⟨trivial, trivial, .inl ⟨rfl, ?_⟩⟩
  exact (like.trans (between₁.trans between₂)).append l [item]

theorem wp_bindOne (like : s₀.Alike s)
    (lists : ∀ n, r.resolve.seen s₀ = .ok n → ∃ l, s₀.partValue n .bindings = .object (.list l)) :
    (r.bind name value).wp calm (fun res _ s' =>
      (res = .ok () ∧ ∃ n l serial b, r.resolve.seen s₀ = .ok n ∧
        s₀.partValue n .bindings = .object (.list l) ∧
        Attachment.toBindings [(name, value)] = .ok [b] ∧
        (s₀.modifyList l (·.append [.object (.binding serial b)])).Alike s') ∨
      ∃ fault, res = .error fault ∧ s₀.Alike s' ∧ (fault.isBorrow ∨
        Attachment.toBindings [(name, value)] = .error fault ∨
        r.resolve.seen s₀ = .error fault)) g s := by
  rw [Receiver.bind, wp_bind]
  refine wp_mono ?_ (wp_makeBinding like)
  rintro res g s₁ ⟨like₁, ⟨serial, b, rfl, texts⟩ | ⟨fault, rfl, texts⟩⟩
  · change Program.wp _ _ (r.part .bindings >>= _) _ _
    rw [wp_bind]
    refine wp_mono ?_ (wp_look (looks_part r .bindings) like₁)
    rintro res g s₂ ⟨like₂, rfl | ⟨fault, rfl⟩⟩
    · rw [seen_part]
      cases hn : r.resolve.seen s₀ with
      | error fault => exact .inr ⟨fault, rfl, like₂, .inr (.inr rfl)⟩
      | ok n =>
          obtain ⟨l, hl⟩ := lists n hn
          change Program.wp _ _ ((s₀.partValue n .bindings).add _) _ _
          rw [hl]
          refine wp_mono ?_ (wp_addItem like₂ _)
          rintro res g s₃ (⟨rfl, added⟩ | ⟨fault, rfl, borrow, like₃⟩)
          · exact .inl ⟨rfl, n, l, serial, b, rfl, hl, texts, added⟩
          · exact .inr ⟨fault, rfl, like₃, .inl borrow⟩
    · exact .inr ⟨_, rfl, like₂, .inl rfl⟩
  · exact .inr ⟨fault, rfl, like₁, .inr (.inl texts)⟩

/-- Where the receiver stands for nothing, the first binding already fails. -/
theorem wp_attach_nowhere (like : s₀.Alike s) {fault : Fault}
    (nowhere : r.resolve.seen s₀ = .error fault) {pairs : Attachment} (some : pairs ≠ []) :
    (r.attach pairs).wp calm (fun res _ s' => ∃ found, res = .error found ∧ s₀.Alike s' ∧
      (found.isBorrow ∨ pairs.toBindings = .error found ∨ found = fault)) g s := by
  cases pairs with
  | nil => exact absurd rfl some
  | cons head rest =>
      obtain ⟨name, value⟩ := head
      change Program.wp _ _ (r.bind name value >>= _) _ _
      rw [wp_bind]
      refine wp_mono ?_ (wp_bindOne like fun n hn => by rw [nowhere] at hn; cases hn)
      rintro res g s' (⟨-, n, l, -, -, hn, -⟩ | ⟨found, rfl, like', cause⟩)
      · rw [nowhere] at hn
        cases hn
      · refine ⟨found, rfl, like', ?_⟩
        rcases cause with borrow | texts | place
        · exact .inl borrow
        · exact .inr (.inl (by rw [Attachment.toBindings_cons, texts]; rfl))
        · exact .inr (.inr (by rw [nowhere] at place; cases place; rfl))

/-- Bindings are attached one after the other up to the first that fails. -/
theorem wp_attach (holds : r.Holds s₀ n l) {done : List Binding} (bound : s₀.Bound l done s)
    (pairs : Attachment) :
    (r.attach pairs).wp calm (fun res _ s' =>
      (res = .ok () ∧ ∃ bs, pairs.toBindings = .ok bs ∧ s₀.Bound l (done ++ bs) s') ∨
      ∃ fault before head rest bs, res = .error fault ∧ pairs = before ++ head :: rest ∧
        Attachment.toBindings before = .ok bs ∧ s₀.Bound l (done ++ bs) s' ∧
        (fault.isBorrow ∨ pairs.toBindings = .error fault)) g s := by
  induction pairs generalizing done g s with
  | nil => exact .inl ⟨rfl, [], rfl, by simpa using bound⟩
  | cons head rest ih =>
      obtain ⟨name, value⟩ := head
      obtain ⟨items, lines, like⟩ := bound
      have node : r.resolve.seen (s₀.modifyList l (·.append items)) = .ok n := holds.apart items
      have list : (s₀.modifyList l (·.append items)).partValue n .bindings = .object (.list l) :=
        holds.list
      change Program.wp _ _ (r.bind name value >>= fun _ => r.attach rest) _ _
      rw [wp_bind]
      refine wp_mono ?_ (wp_bindOne like fun m hm => ?_)
      · rintro res g s₁ (⟨rfl, m, l', serial, b, hm, hl', texts, added⟩ | ⟨fault, rfl, like₁, cause⟩)
        · obtain rfl : n = m := Except.ok.inj (node.symm.trans hm)
          obtain rfl : l = l' := by
            rw [list] at hl'
            simpa using hl'
          have bound₁ : s₀.Bound l (done ++ [b]) s₁ :=
            Bound.snoc ⟨items, lines, .refl _⟩ rfl added
          refine wp_mono ?_ (ih bound₁)
          rintro res g s' (⟨rfl, bs, hbs, bound'⟩ |
            ⟨fault, before, head, rest', bs, rfl, rfl, hbs, bound', cause⟩)
          · refine .inl ⟨rfl, b :: bs, ?_, by simpa using bound'⟩
            rw [Attachment.toBindings_cons, texts, hbs]
            rfl
          · refine .inr ⟨fault, (name, value) :: before, head, rest', b :: bs, rfl, rfl, ?_,
              by simpa using bound', cause.imp_right fun herror => ?_⟩
            · rw [Attachment.toBindings_cons, texts, hbs]
              rfl
            · rw [Attachment.toBindings_cons, texts, herror]
              rfl
        · refine .inr ⟨fault, [], (name, value), rest, [], rfl, rfl, rfl, ?_, ?_⟩
          · rw [List.append_nil]
            exact ⟨items, lines, like₁⟩
          · rcases cause with borrow | texts | place
            · exact .inl borrow
            · exact .inr (by rw [Attachment.toBindings_cons, texts]; rfl)
            · rw [node] at place
              cases place
      · obtain rfl : n = m := Except.ok.inj (node.symm.trans hm)
        exact ⟨l, list⟩

end Attaching

namespace Script.Binder

variable {b : Binder} {o : Object} {r : Receiver} {s : Store}

theorem declared_cases {pairs : Attachment} (declared : b.declared s = .ok pairs) :
    (∃ one, pairs = [one]) ∨ ∃ one two, pairs = [one, two] ∧
      ∀ bs, Attachment.toBindings [one] = .ok bs → ∃ first, b.early? = some first ∧ bs = [first] := by
  cases b with
  | depsMsvcPrefix v =>
      cases declared
      exact .inr ⟨_, _, rfl, fun bs h => ⟨_, rfl, (Except.ok.inj h).symm⟩⟩
  | rspfile file content =>
      cases declared
      refine .inr ⟨_, _, rfl, fun bs h => ?_⟩
      change (file.toArgument >>= fun text => Except.ok [Binding.mk "rspfile" text]) = _ at h
      cases htext : file.toArgument with
      | error fault =>
          rw [htext] at h
          cases h
      | ok text =>
          rw [htext] at h
          exact ⟨⟨"rspfile", text⟩, by simp [early?, htext, Except.toOption], (Except.ok.inj h).symm⟩
  | pool v =>
      change ((v.member "name").seen s >>= fun w => Except.ok [(Value.text "pool", w)]) = _ at declared
      cases hw : (v.member "name").seen s with
      | error fault =>
          rw [hw] at declared
          cases declared
      | ok w =>
          rw [hw] at declared
          exact .inl ⟨_, (Except.ok.inj declared).symm⟩
  | _ =>
      cases declared
      exact .inl ⟨_, rfl⟩

/-- What was attached before something failed is the first of two bindings, or nothing. -/
theorem early_of_before {pairs before rest : Attachment} {head : Value × Value}
    {bs : List Binding} (declared : b.declared s = .ok pairs)
    (split : pairs = before ++ head :: rest) (texts : before.toBindings = .ok bs) :
    bs = [] ∨ ∃ first, b.early? = some first ∧ bs = [first] := by
  rcases declared_cases declared with ⟨one, rfl⟩ | ⟨one, two, rfl, early⟩
  · cases before with
    | nil => exact .inl (Except.ok.inj texts).symm
    | cons one more => cases more <;> cases split
  · cases before with
    | nil => exact .inl (Except.ok.inj texts).symm
    | cons one more =>
        cases more with
        | nil =>
            cases split
            exact .inr (early bs texts)
        | cons two more => cases more <;> cases split

theorem program_eq (hb : ∀ v, b ≠ .pool v) :
    ∃ pairs, b.declared s = .ok pairs ∧ b.program r = r.attach pairs := by
  cases b with
  | pool v => exact absurd rfl (hb v)
  | _ => exact ⟨_, rfl, rfl⟩

/-- How a binder ends. -/
def Ends (b : Binder) (o : Object) (r : Receiver) (s : Store) (res : Except Fault Value)
    (s' : Store) : Prop :=
  match res with
  | .ok v => v = .object o ∧
      ∃ n l bs, r.Holds s n l ∧ b.bindings s = .ok bs ∧ s.Bound l bs s'
  | .error fault =>
      (fault.isBorrow ∨ b.bindings s = .error fault ∨ r.resolve.seen s = .error fault) ∧
        (s.Alike s' ∨
          ∃ n l first, r.Holds s n l ∧ b.early? = some first ∧ s.Bound l [first] s')

theorem wp_declared {s₁ : Store} {g : Progress Store} {pairs : Attachment}
    (lists : ∀ n, r.resolve.seen s = .ok n → ∃ l, r.Holds s n l) (like : s.Alike s₁)
    (declared : b.declared s = .ok pairs) :
    (chained o (r.attach pairs)).wp calm (fun res _ s' => b.Ends o r s res s') g s₁ := by
  have bindings : b.bindings s = pairs.toBindings := by
    rw [Binder.bindings, declared]
    rfl
  change Program.wp _ _ (r.attach pairs >>= _) _ _
  rw [wp_bind]
  cases hn : r.resolve.seen s with
  | error fault =>
      have some : pairs ≠ [] := by
        rcases declared_cases declared with ⟨one, rfl⟩ | ⟨one, two, rfl, -⟩ <;> simp
      refine wp_mono ?_ (wp_attach_nowhere like hn some)
      rintro res g s' ⟨found, rfl, like', cause⟩
      refine ⟨?_, .inl like'⟩
      rw [bindings, hn]
      exact cause.imp_right fun h => h.imp_right fun h => by rw [h]
  | ok n =>
      obtain ⟨l, holds⟩ := lists n hn
      refine wp_mono ?_ (wp_attach holds (bound_nil.mpr like) pairs)
      rintro res g s' (⟨rfl, bs, texts, bound⟩ |
        ⟨fault, before, head, rest, bs, rfl, split, texts, bound, cause⟩)
      · exact ⟨rfl, n, l, bs, holds, bindings.trans texts, bound⟩
      · refine ⟨?_, ?_⟩
        · rw [bindings]
          exact cause.imp_right .inl
        · rcases early_of_before declared split texts with rfl | ⟨first, early, rfl⟩
          · exact .inl (bound_nil.mp bound)
          · exact .inr ⟨n, l, first, holds, early, bound⟩

theorem wp_chained (lists : ∀ n, r.resolve.seen s = .ok n → ∃ l, r.Holds s n l) :
    (chained o (b.program r)).wp calm (fun res _ s' => b.Ends o r s res s') .start s := by
  by_cases hpool : ∃ v, b = .pool v
  · obtain ⟨v, rfl⟩ := hpool
    have named : (chained o ((Binder.pool v).program r)) =
        v.member "name" >>= fun w => chained o (r.attach (.one "pool" w)) :=
      Program.bind_assoc ..
    rw [named, wp_bind]
    refine wp_mono ?_ (wp_look (looks_member v (by decide) (by decide)) (.refl s))
    rintro res g s₁ ⟨like, rfl | ⟨fault, rfl⟩⟩
    · cases hw : (v.member "name").seen s with
      | error fault =>
          refine ⟨.inr (.inl ?_), .inl like⟩
          simp only [bindings, declared, hw]
          rfl
      | ok w =>
          refine wp_declared lists like ?_
          simp only [declared, hw]
          rfl
    · exact ⟨.inl rfl, .inl like⟩
  · obtain ⟨pairs, declared, program⟩ := program_eq (r := r) (s := s)
      fun v h => hpool ⟨v, h⟩
    rw [program]
    exact wp_declared lists (.refl s) declared

/-- However guards are used by others meanwhile: a binder that returns has attached all its
bindings in their order and nothing else.  One that fails has found a value that has no
text, or nothing to attach to, or a guard that was refused; and it has attached nothing, or
only the first one where it is there to attach two. -/
theorem attached_or_failed {t : ThreadId} {κ : Type} {call : κ} {task : Task κ} {s' : Store}
    (lists : ∀ n, r.resolve.seen s = .ok n → ∃ l, r.Holds s n l)
    (run : Task.Among Store.Alike (.start t call (chained o (b.program r))) s task s')
    {res : Except Fault Value} (ended : task.outcome? = some res) :
    match res with
    | .ok v => v = .object o ∧
        ∃ n l bs, r.Holds s n l ∧ b.bindings s = .ok bs ∧ s.Bound l bs s'
    | .error fault =>
        (fault.isBorrow ∨ b.bindings s = .error fault ∨ r.resolve.seen s = .error fault) ∧
          (s.Alike s' ∨
            ∃ n l first, r.Holds s n l ∧ b.early? = some first ∧ s.Bound l [first] s') := by
  obtain ⟨s₀, like, ends⟩ := run.outcome steady_calm trivial
    (fun _ _ _ change => ⟨fun _ => change, trivial⟩) (wp_chained lists) trivial ended
  cases res with
  | ok v =>
      obtain ⟨hv, n, l, bs, holds, texts, items, lines, bound⟩ := ends
      exact ⟨hv, n, l, bs, holds, texts, items, lines, bound.trans like⟩
  | error fault =>
      obtain ⟨cause, before | ⟨n, l, first, holds, early, items, lines, bound⟩⟩ := ends
      · exact ⟨cause, .inl (before.trans like)⟩
      · exact ⟨cause, .inr ⟨n, l, first, holds, early, items, lines, bound.trans like⟩⟩

/-- A store with nothing but a rule. -/
def ruled : Store :=
  ((RuleId.make (.text "r") (.text "c") (.ownership .single)).alone (.ofFiles ⟨[], []⟩)).2

/-- A response file whose content has no text. -/
def halved : Task Unit × Store :=
  Task.move^[20] (.start 0 () (chained (.rule ⟨0⟩)
    ((Binder.rspfile (.text "a") .null).program (.node (.rule ⟨0⟩)))), ruled)

theorem attached_or_failed_halved :
    (∀ n, (Receiver.node (.rule ⟨0⟩)).resolve.seen ruled = .ok n →
      ∃ l, (Receiver.node (.rule ⟨0⟩)).Holds ruled n l) ∧
    halved.1.outcome? = some (.error (.unconvertible "NoneType")) ∧
    ∃ n l first, (Receiver.node (.rule ⟨0⟩)).Holds ruled n l ∧
      (Binder.rspfile (.text "a") .null).early? = some first ∧ ruled.Bound l [first] halved.2 := by
  have lists : ∀ n, (Receiver.node (.rule ⟨0⟩)).resolve.seen ruled = .ok n →
      ∃ l, (Receiver.node (.rule ⟨0⟩)).Holds ruled n l := by
    rintro n hn
    obtain rfl : Node.rule ⟨0⟩ = n := Except.ok.inj hn
    exact ⟨⟨0⟩, Receiver.holds_node rfl (by decide)⟩
  have ended : halved.1.outcome? = some (.error (.unconvertible "NoneType")) := rfl
  refine ⟨lists, ended, ?_⟩
  rcases (attached_or_failed lists (Task.Among.moves _ _ _ 20) ended).2 with same | first
  · exact absurd (congrArg List.length (same.items ⟨0⟩)) (by decide +kernel)
  · exact first

/-- What fails halfway leaves a rule with one binding more than it had. -/
theorem halved_leaves_first :
    halved.1.outcome? = some (.error (.unconvertible "NoneType")) ∧
      (ruled.list (ruled.part (.rule ⟨0⟩) .bindings)).items.length = 1 ∧
      (halved.2.list (halved.2.part (.rule ⟨0⟩) .bindings)).items.length = 2 := by
  refine ⟨rfl, ?_, ?_⟩ <;> decide +kernel

end Script.Binder

end NinjaFile
