import NinjaFile.Proofs.Frame.Calls
import NinjaFile.Proofs.Overlap.Moving

/-!
# Attaching while others render

Whoever attaches looks up the list of a statement and puts something into this list, whether or
not the statement still has it then.
-/

namespace NinjaFile.Overlap

open Store Program Script
open Housing (Aims Saw saw_append HasPart)

variable {α : Type} {c : Setting} {J : Housing.Assertion} {d : DocumentId} {a : Arena} {h : Handle}
  {r : Receiver} {q : Part}

/-! ## What is attached to -/

/-- The arena is that of the document. -/
def Into (a : Arena) (d : DocumentId) : Housing.Assertion := fun _ s =>
  s.HasDocument d ∧ (s.document d).arena = a

theorem lasting_into (a : Arena) (d : DocumentId) : Lasting c (Into a d) where
  later _ _ _ h gentle := by
    obtain ⟨has, same⟩ := gentle.documents d h.1
    exact ⟨has, by rw [same]; exact h.2⟩
  note _ _ _ h := h

theorem does_atHandle {k : Value → Action α} {Q : α → Housing.Assertion} (lasting : Lasting c J)
    (hk : Does c J (k (.object (.arena h.arena))) Q) : Does c J (h.statements >>= k) Q := by
  refine does_bind (R := fun place trail s => J trail s ∧ place = .object (.arena h.arena)) ?_
    fun place => does_pull ?_
  · refine does_read fun _ s hJ good _ => ⟨lasting.note _ _ _ hJ, ?_⟩
    rw [Value.stored?_of_unassigned good.housed.unassigned]
    rfl
  · rintro rfl
    exact hk

theorem lasting_aims (r : Receiver) : Lasting c fun _ s => Aims r s where
  later _ s s' h gentle := by
    cases r with
    | mixin m => trivial
    | node n => exact gentle.nodes n h
    | handle p =>
        obtain ⟨d, leads⟩ := h
        obtain ⟨has, same⟩ := gentle.documents d leads.has
        exact ⟨d, has, leads.arena.trans (by rw [same])⟩
  note _ _ _ h := h

/-- By what was seen, this is the statement that the receiver stands for. -/
def Meant (r : Receiver) (n : Node) (trail : List (Store × Store)) : Prop :=
  match r with
  | .node m => m = n
  | .handle h => ∃ step ∈ trail, h.item? step.1 = some n.toValue
  | .mixin _ => False

theorem Meant.mono {n : Node} {trail : List (Store × Store)} (h : Meant r n trail)
    (more : List (Store × Store)) : Meant r n (trail ++ more) := by
  cases r with
  | node m => exact h
  | mixin m => exact h
  | handle p =>
      obtain ⟨step, mem, item⟩ := h
      exact ⟨step, List.mem_append_left _ mem, item⟩

theorem does_storedMember (lasting : Lasting c J) (v : Value) (name : String) :
    Does c J (v.storedMember name) fun w trail s =>
      J trail s ∧ ∃ step ∈ trail, v.field? step.1 name = some w := by
  refine does_bind (R := fun found trail s => J trail s ∧ ∃ step ∈ trail,
    v.field? step.1 name = found) (does_read fun _ s hJ good _ => ⟨lasting.note _ _ _ hJ, ?_⟩)
    fun found => ?_
  · refine ⟨(s, s), List.mem_append_right _ (List.mem_singleton_self _), ?_⟩
    rw [Value.stored?_of_unassigned good.housed.unassigned]
  · cases found with
    | none => exact does_fail _
    | some w => exact does_pure fun _ _ h => h

theorem does_statement {N : Value → Store → Prop} (lasting : Lasting c J)
    (found : ∀ w trail s, J trail s → s.Housed → h.item? s = some w → N w s)
    (alike : ∀ w s s', N w s → s.Alike s' → N w s') :
    Does c J h.statement fun w trail s =>
      (J trail s ∧ N w s ∧ ∃ step ∈ trail, h.item? step.1 = some w) ∧ h.expected.admits w = true := by
  refine does_atHandle lasting ?_
  refine does_bind (R := fun index trail s => J trail s ∧ index = .int h.index) ?_
    fun index => does_pull ?_
  · refine does_read fun _ s hJ good _ => ⟨lasting.note _ _ _ hJ, ?_⟩
    rw [Value.stored?_of_unassigned good.housed.unassigned]
    rfl
  rintro rfl
  refine does_bind (R := fun w trail s => J trail s ∧ N w s ∧
    ∃ step ∈ trail, h.item? step.1 = some w) ?_ fun w => ?_
  · refine lasting.does_guarded (R := fun w trail s => J trail s ∧ N w s ∧
      ∃ step ∈ trail, h.item? step.1 = some w) ?_ ?_
    · refine does_bind (R := fun items trail s => J trail s ∧ (s, s) ∈ trail ∧ s.Housed ∧
      (s.list h.arena.statements).items = items) ?_ fun items => does_ofExcept fun w hw _ s items => ?_
      · exact does_read fun _ s hJ good _ => ⟨lasting.note _ _ _ hJ,
          List.mem_append_right _ (List.mem_singleton_self _), good.housed, rfl⟩
      · obtain ⟨hJ, mem, housed, rfl⟩ := items
        have item : h.item? s = some w := Value.pick_of_listItem hw
        exact ⟨hJ, found w _ s hJ housed item, _, mem, item⟩
    · rintro w _ s s' ⟨hJ, there, item⟩ like
      exact ⟨lasting.alike hJ like, alike w s s' there like, item⟩
  · split
    · next admits => exact does_pure fun _ _ found => ⟨found, admits⟩
    · exact does_fail _

theorem does_resolve (lasting : Lasting c J) (aims : ∀ trail s, J trail s → Aims r s) :
    Does c J r.resolve fun n trail s => (J trail s ∧ s.HasNode n ∧ Meant r n trail) ∧
      (r.takesPaths → ∃ b, n = .build b) := by
  cases r with
  | mixin m => exact does_fail _
  | node n =>
      refine does_pure fun _ _ hJ => ⟨⟨hJ, aims _ _ hJ, rfl⟩, fun takes => ?_⟩
      cases n <;> first | exact ⟨_, rfl⟩ | cases takes
  | handle h =>
      refine does_bind (does_statement (N := fun w s => ∀ n, w.node? = some n → s.HasNode n) lasting
        (fun w _ s hJ housed item n hn => ?_) fun w s s' nodes like n hn => ?_) fun w => ?_
      · obtain ⟨d, leads⟩ := aims _ _ hJ
        obtain rfl := Value.eq_toValue hn
        exact housed.hasNode_of_item leads item
      · exact (like.hasNode n).mpr (nodes n hn)
      split
      · next n node =>
          refine does_pure fun _ _ found => ?_
          obtain ⟨⟨hJ, has, item⟩, admits⟩ := found
          obtain rfl := Value.eq_toValue node
          refine ⟨⟨hJ, has n node, item⟩, fun takes => ?_⟩
          have expected : h.expected = .build := by simpa [Receiver.takesPaths] using takes
          rw [expected] at admits
          cases n <;> first | exact ⟨_, rfl⟩ | cases admits
      · exact does_fail _

/-- The list was seen to be that of a part of the statement that the receiver stands for. -/
def Found (r : Receiver) (q : Part) (n : Node) (l : ListId) : Housing.Assertion := fun trail s =>
  s.HasNode n ∧ Meant r n trail ∧ Saw trail l (.part n q)

theorem lasting_found (n : Node) (l : ListId) : Lasting c (Found r q n l) :=
  (lasting_hasNode n).and ⟨fun _ _ _ h _ => h, fun _ _ _ h => ⟨h.1.mono _, h.2.mono _⟩⟩

theorem does_part (lasting : Lasting c J) (aims : ∀ trail s, J trail s → Aims r s)
    (part : HasPart r q) :
    Does c J (r.part q) fun w trail s => ∃ n l, (J trail s ∧ Found r q n l trail s) ∧
      w = .object (.list l) := by
  refine does_bind (does_resolve lasting aims) fun n => does_pull fun takes => ?_
  have hq : q ∈ n.parts := by
    rcases part with rfl | paths
    · exact bindings_mem_parts n
    · obtain ⟨b, rfl⟩ := takes paths
      cases q with
      | bindings => exact bindings_mem_parts _
      | paths slot => exact paths_mem_parts b slot
  refine does_read fun trail s found good _ => ?_
  obtain ⟨hJ, has, meant⟩ := found
  refine ⟨n, s.part n q, ⟨lasting.note _ _ _ hJ, has, meant.mono _, ?_⟩, good.housed.partValue n q⟩
  exact saw_append.mpr (.inr ⟨⟨has, hq⟩, rfl⟩)

/-! ## What is attached -/

/-- Items were put, all in one step, into a list that was seen to be that of a part of the
statement. -/
def Put (n : Node) (q : Part) (items : List Value) (trail : List (Store × Store)) : Prop :=
  ∃ l, Saw trail l (.part n q) ∧ ∃ step ∈ trail, step.1.HasNode n ∧
    step.2 = step.1.modifyList l (·.append items)

/-- Items were put into a list of what the receiver stands for. -/
def PutBy (r : Receiver) (q : Part) (items : List Value) (trail : List (Store × Store)) : Prop :=
  ∃ n, Meant r n trail ∧ Put n q items trail

theorem lasting_putBy (items : List Value) : Lasting c fun trail _ => PutBy r q items trail where
  later _ _ _ h _ := h
  note trail _ step h := by
    obtain ⟨n, meant, l, saw, put, mem, has⟩ := h
    exact ⟨n, meant.mono _, l, saw.mono _, put, List.mem_append_left _ mem, has⟩

theorem does_put (lasting : Lasting c J) {n : Node} {l : ListId} {lock : LockId} {mode : Mode}
    {f : Store → α × Store} (items : List Value) (plain : ∀ v ∈ items, v.node? = none)
    (appends : ∀ s, (f s).2 = s.modifyList l (·.append items)) :
    Does c (fun trail s => J trail s ∧ Found r q n l trail s) (.guarded lock mode (.update f))
      fun _ trail s => J trail s ∧ Meant r n trail ∧ Put n q items trail := by
  refine (lasting.and (lasting_found n l)).does_guarded
    (R := fun _ trail s => J trail s ∧ Meant r n trail ∧ Put n q items trail) ?_ ?_
  · refine does_update fun trail s found _ _ _ => ?_
    obtain ⟨hJ, has, meant, saw⟩ := found
    have fair : Fair c.kept s (f s).2 :=
      appends s ▸ .append s l fun v hv => .inl (plain v hv)
    exact ⟨fair, lasting.step hJ fair.gentle, meant.mono _, l, saw.mono _, (s, (f s).2),
      List.mem_append_right _ (List.mem_singleton_self _), has, appends s⟩
  · exact fun _ _ _ _ h like => ⟨lasting.alike h.1 like, h.2⟩

theorem does_extend (lasting : Lasting c J) {n : Node} (l : ListId) {items : List Value}
    (plain : ∀ v ∈ items, v.node? = none) :
    Does c (fun trail s => J trail s ∧ Found r q n l trail s) (l.extend items)
      fun _ trail s => J trail s ∧ Meant r n trail ∧ Put n q items trail :=
  does_put (f := fun s => ((), s.modifyList l (·.append items))) lasting items plain fun _ => rfl

/-- Something holds of each of the bindings with these names and values, as an object of its
own. -/
def BringsPairs (pairs : Attachment) (P : List Value → Prop) : Prop :=
  ∃ (bs : List Binding) (items : List Value), pairs.toBindings = .ok bs ∧
    items.map Value.line? = bs.map (some ∘ BlockLine.binding) ∧ ∀ v ∈ items, P [v]

theorem BringsPairs.mono {pairs : Attachment} {P P' : List Value → Prop} (h : BringsPairs pairs P)
    (imp : ∀ items, P items → P' items) : BringsPairs pairs P' := by
  obtain ⟨bs, items, texts, lines, all⟩ := h
  exact ⟨bs, items, texts, lines, fun v hv => imp _ (all v hv)⟩

theorem BringsPairs.cons {pair : Value × Value} {rest : Attachment} {P : List Value → Prop}
    (first : BringsPairs [pair] P) (others : BringsPairs rest P) : BringsPairs (pair :: rest) P := by
  obtain ⟨bs, items, texts, lines, all⟩ := first
  obtain ⟨bs', items', texts', lines', all'⟩ := others
  refine ⟨bs ++ bs', items ++ items', ?_, by simp [lines, lines'], fun v hv => ?_⟩
  · rw [Attachment.toBindings_cons, texts, texts']
    rfl
  · exact (List.mem_append.mp hv).elim (all v) (all' v)

theorem does_bindPair (lasting : Lasting c J) (aims : ∀ trail s, J trail s → Aims r s)
    (name value : Value) :
    Does c J (r.bind name value) fun _ trail s => J trail s ∧
      BringsPairs [(name, value)] (PutBy r .bindings · trail) := by
  refine does_bind (does_makeBinding lasting name value) fun binding => does_pull ?_
  rintro ⟨serial, b, rfl, text⟩
  refine does_bind (does_part lasting aims (.inl rfl)) fun place => does_exists fun n =>
    does_exists fun l => does_pull ?_
  rintro rfl
  refine does_bind (does_put lasting [.object (.binding serial b)] ?_ fun _ => rfl) fun _ =>
    does_pure fun _ _ h => ⟨h.1, [b], [.object (.binding serial b)], text, rfl, fun v hv => ?_⟩
  · exact fun v hv => List.mem_singleton.mp hv ▸ rfl
  · exact List.mem_singleton.mp hv ▸ ⟨n, h.2⟩

theorem does_attach (lasting : Lasting c J) (aims : ∀ trail s, J trail s → Aims r s)
    (pairs : Attachment) :
    Does c J (r.attach pairs) fun _ trail s => J trail s ∧
      BringsPairs pairs (PutBy r .bindings · trail) := by
  induction pairs generalizing J with
  | nil => exact does_pure fun _ _ h => ⟨h, [], [], rfl, rfl, fun _ none => nomatch none⟩
  | cons pair rest ih =>
      refine does_bind (does_bindPair lasting aims pair.1 pair.2) fun _ => ?_
      have known : Lasting c fun trail _ => BringsPairs [pair] (PutBy r .bindings · trail) :=
        ⟨fun _ _ _ h _ => h, fun trail s step h =>
          h.mono fun v hv => (lasting_putBy (c := c) v).note trail s step hv⟩
      refine (ih (lasting.and known) fun _ _ h => aims _ _ h.1).post ?_
      exact fun _ _ _ h => ⟨h.1.1, h.1.2.cons h.2⟩

/-- What a pool is called, or what a handle leads to. -/
def Named (pool name : Value) (trail : List (Store × Store)) : Prop :=
  ∃ v, (v = pool ∨ ∃ h, pool = .object (.handle h) ∧ ∃ step ∈ trail, h.item? step.1 = some v) ∧
    ∃ step ∈ trail, v.field? step.1 "name" = some name

theorem lasting_named (pool name : Value) : Lasting c fun trail _ => Named pool name trail where
  later _ _ _ h _ := h
  note trail _ more h := by
    obtain ⟨v, what, step, mem, field⟩ := h
    refine ⟨v, what.imp_right fun ⟨h, is, step, mem, item⟩ => ?_, step, List.mem_append_left _ mem, field⟩
    exact ⟨h, is, step, List.mem_append_left _ mem, item⟩

theorem does_name (lasting : Lasting c J) (pool : Value) :
    Does c J (pool.member "name") fun name trail s => J trail s ∧ Named pool name trail := by
  have stored : Does c J (pool.storedMember "name") fun name trail s => J trail s ∧ Named pool name trail :=
    (does_storedMember lasting pool "name").post fun _ _ _ h => ⟨h.1, pool, .inl rfl, h.2⟩
  cases pool with
  | object o =>
      cases o with
      | handle h =>
          change Does c J (h.member "name") _
          rw [Handle.member]
          split
          · refine does_bind (does_statement (N := fun _ _ => True) lasting (fun _ _ _ _ _ _ => trivial)
              fun _ _ _ _ _ => trivial) fun v => ?_
            have item : Lasting c fun trail _ => ∃ step ∈ trail, h.item? step.1 = some v := by
              refine ⟨fun _ _ _ h _ => h, fun _ _ _ found => ?_⟩
              obtain ⟨step, mem, same⟩ := found
              exact ⟨step, List.mem_append_left _ mem, same⟩
            split
            · have stored := does_storedMember (lasting.and item) v "name"
              refine (stored.pre fun _ _ h => ⟨h.1.1, h.1.2.2⟩).post ?_
              exact fun _ _ _ found => ⟨found.1.1, v, .inr ⟨h, rfl, found.1.2⟩, found.2⟩
            · next computed forwarded => exact absurd computed forwarded
          · exact stored
      | _ => exact stored
  | _ => exact stored

/-- The texts are what a value gives as arguments at one time. -/
def Gives (s : Store) (v : Value) (texts : List String) : Prop :=
  match v.items with
  | .source id => Value.takeArguments (s.source id).items = (texts, none)
  | _ => v.arguments.seen s = .ok texts

def Given (v : Value) (texts : List String) (trail : List (Store × Store)) : Prop :=
  ∃ step ∈ trail, Gives step.1 v texts

theorem lasting_given (v : Value) (texts : List String) : Lasting c fun trail _ => Given v texts trail :=
  ⟨fun _ _ _ h _ => h, fun _ _ _ ⟨step, mem, gives⟩ => ⟨step, List.mem_append_left _ mem, gives⟩⟩

theorem does_sourceArguments (lasting : Lasting c J) (id : SourceId) :
    Does c J id.arguments fun texts trail s => J trail s ∧ Given (.source id) texts trail := by
  refine does_bind (R := fun r trail s => J trail s ∧ ∀ texts, r = .ok texts →
    Given (.source id) texts trail) ?_ fun r => does_bind (does_ofExcept (Q := fun texts trail s =>
      J trail s ∧ Given (.source id) texts trail) fun texts ok _ _ h => ⟨h.1, h.2 texts ok⟩) fun texts => ?_
  · refine does_update fun trail s hJ good neat given => ?_
    have fair : Fair c.kept s _ := (every_aside (aside_takeArguments id)).1 s
    refine ⟨fair, lasting.step hJ fair.gentle, fun texts ok => ?_⟩
    refine ⟨_, List.mem_append_right _ (List.mem_singleton_self _), ?_⟩
    change Value.takeArguments (s.source id).items = (texts, none)
    dsimp only at ok
    split at ok
    · cases ok
    · split at ok
      · cases ok
      · next taken => exact Except.ok.inj ok ▸ taken
  · refine does_bind (does_every (lasting.and (lasting_given _ texts)) (every_aside (aside_close id)))
      fun _ => does_pure fun _ _ h => h

private theorem arguments_cases {v : Value} (plain : ∀ id, v.items ≠ .source id) :
    (∃ r, v.arguments = Program.ofExcept r) ∨ ∃ (l : ListId) (f : List Value → Except Fault (List String)),
      v.arguments = l.snapshot >>= fun items => Program.ofExcept (f items) := by
  rw [Value.arguments.eq_def]
  split
  · exact .inl ⟨.ok [], rfl⟩
  · split
    · refine .inl ⟨v.toArgument.map fun text => [text], ?_⟩
      cases v.toArgument <;> rfl
    · split
      · exact .inl ⟨_, rfl⟩
      · exact .inr ⟨_, _, rfl⟩
      · next id source => exact absurd source (plain id)
      · exact .inl ⟨.error _, rfl⟩

theorem does_arguments (lasting : Lasting c J) (started : ∀ trail s, J trail s → trail ≠ [])
    (v : Value) : Does c J v.arguments fun texts trail s => J trail s ∧ Given v texts trail := by
  by_cases source : ∃ id, v.items = .source id
  · obtain ⟨id, source⟩ := source
    obtain rfl : v = .source id := by
      cases v with
      | source => cases source; rfl
      | object o => cases o <;> cases source
      | _ => cases source
    exact does_sourceArguments lasting id
  have plain (id : SourceId) : v.items ≠ .source id := fun h => source ⟨id, h⟩
  have gives {s : Store} {texts : List String} (h : v.arguments.seen s = .ok texts) : Gives s v texts := by
    rw [Gives]
    split
    · next id source => exact absurd source (plain id)
    · exact h
  obtain ⟨r, same⟩ | ⟨l, f, same⟩ := arguments_cases plain
  · rw [same] at gives ⊢
    refine does_ofExcept fun texts ok trail s hJ => ⟨hJ, ?_⟩
    obtain ⟨step, mem⟩ := List.exists_mem_of_ne_nil _ (started _ _ hJ)
    exact ⟨step, mem, gives (by rw [seen_ofExcept, ok])⟩
  · rw [same] at gives ⊢
    refine does_bind (R := fun items trail s => J trail s ∧ ∃ step ∈ trail,
      (step.1.list l).items = items) ?_ fun items => does_ofExcept fun texts ok trail s found => ?_
    · refine lasting.does_guarded (R := fun items trail s => J trail s ∧ ∃ step ∈ trail,
        (step.1.list l).items = items) (does_read fun _ s hJ _ _ => ?_) ?_
      · exact ⟨lasting.note _ _ _ hJ, (s, s), List.mem_append_right _ (List.mem_singleton_self _), rfl⟩
      · exact fun _ _ _ _ h like => ⟨lasting.alike h.1 like, h.2⟩
    · obtain ⟨hJ, step, mem, rfl⟩ := found
      refine ⟨hJ, step, mem, gives ?_⟩
      have items : l.snapshot.seen step.1 = .ok (step.1.list l).items := seen_guarded ..
      rw [seen_bind, items]
      exact (seen_ofExcept ..).trans ok

/-- The pairs that a binder attaches. -/
def Declares (b : Binder) (pairs : Attachment) (trail : List (Store × Store)) : Prop :=
  match b with
  | .pool pool => ∃ name, pairs = [(.text "pool", name)] ∧ Named pool name trail
  | b => ∀ s, b.declared s = .ok pairs

theorem does_binder (lasting : Lasting c J) (aims : ∀ trail s, J trail s → Aims r s) (b : Binder) :
    Does c J (b.program r) fun _ trail s => J trail s ∧ ∃ pairs, Declares b pairs trail ∧
      BringsPairs pairs (PutBy r .bindings · trail) := by
  have bound {pairs : Attachment} (declares : ∀ trail, Declares b pairs trail) :
      Does c J (r.attach pairs) fun _ trail s => J trail s ∧ ∃ pairs, Declares b pairs trail ∧
        BringsPairs pairs (PutBy r .bindings · trail) :=
    (does_attach lasting aims pairs).post fun _ trail _ h => ⟨h.1, pairs, declares trail, h.2⟩
  cases b with
  | pool pool =>
      refine does_bind (does_name lasting pool) fun name => ?_
      refine (does_attach (lasting.and (lasting_named pool name)) (fun _ _ h => aims _ _ h.1) _).post ?_
      exact fun _ _ _ h => ⟨h.1.1, _, ⟨name, rfl, h.1.2⟩, h.2⟩
  | _ => exact bound fun _ _ => rfl

theorem does_addPaths (lasting : Lasting c J) (aims : ∀ trail s, J trail s → Aims r s)
    (takes : r.takesPaths) (slot : Slot) (paths : Value) :
    Does c J (r.addPaths slot paths) fun _ trail s => J trail s ∧ ∃ texts, Given paths texts trail ∧
      PutBy r (.paths slot) (texts.map .text) trail := by
  refine does_bind (does_part lasting aims (.inr takes)) fun w => does_exists fun n =>
    does_exists fun l => does_pull ?_
  rintro rfl
  change Does c _ (paths.arguments >>= fun texts => l.extend (texts.map .text)) _
  have known := lasting.and (lasting_found (r := r) (q := .paths slot) n l)
  refine does_bind (does_arguments known (fun _ _ h none => ?_) paths) fun texts => ?_
  · rw [none] at h
    exact Housing.not_saw_nil h.2.2.2
  have put := does_extend (r := r) (n := n) (q := .paths slot)
    (lasting.and (lasting_given paths texts)) l (plain_texts texts)
  refine (put.pre fun _ _ h => ⟨⟨h.1.1, h.2⟩, h.1.2⟩).post fun _ _ _ h => ?_
  exact ⟨h.1.1, texts, h.1.2, n, h.2⟩

/-- Something holds of what an attacher brings: of each binding, or of all the paths. -/
def Brings (a : Attacher) (trail : List (Store × Store)) (P : List Value → Prop) : Prop :=
  match a with
  | .bind b => ∃ pairs, Declares b pairs trail ∧ BringsPairs pairs P
  | .paths _ v => ∃ texts : List String, Given v texts trail ∧ P (texts.map .text)

theorem Brings.mono {a : Attacher} {trail : List (Store × Store)} {P P' : List Value → Prop}
    (h : Brings a trail P) (imp : ∀ items, P items → P' items) : Brings a trail P' := by
  cases a with
  | bind b =>
      obtain ⟨pairs, declares, brings⟩ := h
      exact ⟨pairs, declares, brings.mono imp⟩
  | paths slot v =>
      obtain ⟨texts, given, all⟩ := h
      exact ⟨texts, given, imp _ all⟩

theorem does_attacher (lasting : Lasting c J) (aims : ∀ trail s, J trail s → Aims r s) {a : Attacher}
    (part : HasPart r a.part) :
    Does c J (a.program r) fun _ trail s => J trail s ∧ Brings a trail (PutBy r a.part · trail) := by
  cases a with
  | bind b => exact does_binder lasting aims b
  | paths slot v => exact does_addPaths lasting aims (part.resolve_left (by simp [Attacher.part])) slot v

theorem does_extendPart (lasting : Lasting c J) {n : Node} (has : ∀ trail s, J trail s → s.HasNode n)
    (hq : q ∈ n.parts) {items : List Value} (admits : ∀ v ∈ items, q.admits v) :
    Does c J (Housing.extendPart n q items) fun _ trail s => J trail s ∧ Put n q items trail := by
  refine does_bind (does_part (r := .node n) lasting has (Housing.hasPart_of_mem hq)) fun w =>
    does_exists fun m => does_exists fun l => does_pull ?_
  rintro rfl
  refine (does_extend lasting l fun v hv => plain_of_admits (admits v hv)).post fun _ _ _ h => ⟨h.1, ?_⟩
  obtain rfl : n = m := h.2.1
  exact h.2.2

/-! ## Calls that attach -/

/-- Something holds of what a call attaches, by the statement and the part that it is attached
to. -/
def Attaches (trail : List (Store × Store)) (P : Node → Part → List Value → Prop) : Housing.Call → Prop
  | .attach r a => Brings a trail fun items => ∃ n, Meant r n trail ∧ P n a.part items
  | .extend n q items => P n q items
  | _ => True

theorem Attaches.mono {trail : List (Store × Store)} {P P' : Node → Part → List Value → Prop}
    {call : Housing.Call} (h : Attaches trail P call)
    (imp : ∀ n q items, P n q items → P' n q items) : Attaches trail P' call := by
  cases call with
  | attach r a => exact Brings.mono h fun items ⟨n, meant, put⟩ => ⟨n, meant, imp n _ items put⟩
  | extend n q items => exact imp n q items h
  | _ => trivial

end NinjaFile.Overlap
