import NinjaFile.Proofs.Program.Interleaving
import NinjaFile.Proofs.Store.Tame

/-!
# Growing stores

Among threads that do nothing but call the library, a store only grows.  What has been
seen of a list stays there, a document keeps its arena, and a thing has no attributes
before it is made; so an assertion that lasts while a store grows lasts for good.
-/

namespace NinjaFile

namespace Store

/-- Attributes belong to things that have been made, none of them poses as the arena of
a handle, and documents have lists that exist. -/
structure Sound (s : Store) : Prop where
  fresh : ∀ n name, s.serial ≤ n → s.assigned? (.serial n) name = none
  plain : ∀ i arena, s.assigned? i "statements" ≠ some (.object (.arena arena))
  arenas : ∀ id, id.index < s.documents.size →
    (s.document id).arena.statements.index < s.lists.size

theorem sound_ofFiles (files : FileTree) : (ofFiles files).Sound where
  fresh _ _ _ := rfl
  plain i arena h := by cases h
  arenas id h := absurd h (Nat.not_lt_zero _)

namespace Sound

variable {s s' : Store}

theorem of_extends (h : s.Sound) (hext : s.Extends s')
    (documents : s'.documents.size = s.documents.size)
    (fresh : ∀ n name, s'.serial ≤ n → s'.assigned? (.serial n) name = none)
    (plain : ∀ i arena, s'.assigned? i "statements" ≠ some (.object (.arena arena))) :
    s'.Sound where
  fresh := fresh
  plain := plain
  arenas id hid := by
    rw [documents] at hid
    rw [hext.document id hid]
    exact Nat.lt_of_lt_of_le (h.arenas id hid) hext.lists

private theorem of_assigned (h : s.Sound) (hext : s.Extends s')
    (documents : s'.documents = s.documents) (serial : s'.serial = s.serial)
    (assigned : s'.assigned = s.assigned) : s'.Sound := by
  refine h.of_extends hext (congrArg Table.size documents) ?_ ?_
  · intro n name hn
    rw [assigned?, assigned]
    exact h.fresh n name (serial ▸ hn)
  · intro i arena
    rw [assigned?, assigned]
    exact h.plain i arena

theorem setGuard (h : s.Sound) (lock : LockId) (g : Guard) : (s.setGuard lock g).Sound :=
  h.of_assigned (extends_setGuard s lock g) (documents_setGuard ..) (serial_setGuard ..)
    (assigned_setGuard ..)

private theorem assignAll (h : s.Sound) {i : Identity} (hi : ∀ n, i = .serial n → n < s.serial)
    {attributes : List (String × Value)} (plain : PlainAttributes attributes) :
    (s.assignAll i attributes).Sound := by
  have eq := assignAll_eq s i attributes
  constructor
  · intro n name hn
    have hn : s.serial ≤ n := by
      rw [eq] at hn
      exact hn
    rw [assigned?_assignAll_of_ne]
    · exact h.fresh n name hn
    · intro heq
      exact absurd (hi n heq.symm) (Nat.not_lt.mpr hn)
  · intro j arena hj
    rcases assigned?_assignAll i j attributes "statements" (s := s) with hsame | ⟨v, hv, heq⟩
    · exact h.plain j arena (hsame ▸ hj)
    · rw [heq, Option.some.injEq] at hj
      subst hj
      exact plain arena hv
  · rw [eq]
    exact h.arenas

private theorem insertList (h : s.Sound) (l : GuardedList) : (s.insertList l).2.Sound :=
  h.of_assigned (extends_insertList s l) rfl rfl rfl

end Sound

/-- Every effect of the library keeps a store sound. -/
theorem Effect.sound {w : Bool} {s s' : Store} (heffect : Effect w s s') (h : s.Sound) :
    s'.Sound := by
  have hext := heffect.extends
  cases heffect with
  | same => exact h
  | log logging => exact h.of_assigned hext rfl rfl rfl
  | files _ files => exact h.of_assigned hext rfl rfl rfl
  | source id f => exact h.of_assigned hext rfl rfl rfl
  | newSource source => exact h.of_assigned hext rfl rfl rfl
  | append id items => exact h.of_assigned hext rfl rfl rfl
  | part node part list =>
      refine h.of_extends hext (congrArg Table.size (documents_setPart ..)) ?_ ?_
      · intro n name hn
        rw [assigned?_putPart]
        split
        · rfl
        · exact h.fresh n name (serial_setPart s node part list ▸ hn)
      · intro i arena
        rw [assigned?_putPart]
        split
        · rintro ⟨⟩
        · exact h.plain i arena
  | list l _ attributes plain =>
      exact Sound.assignAll (Sound.assignAll (h.insertList l) (by simp) plain) (by simp) plain
  | arena l _ attributes plain => exact Sound.assignAll (h.insertList l) (by simp) plain
  | rule r => exact h.of_assigned hext rfl rfl rfl
  | build b attributes plain =>
      refine Sound.assignAll (s := (s.insertBuild b).2) ?_ (by simp) plain
      exact h.of_assigned (.of_eq (fun _ => List.prefix_rfl) (Nat.le_refl _) rfl rfl fun _ _ => rfl)
        rfl rfl rfl
  | pool p attributes plain =>
      refine Sound.assignAll (s := (s.insertPool p).2) ?_ (by simp) plain
      exact h.of_assigned (.of_eq (fun _ => List.prefix_rfl) (Nat.le_refl _) rfl rfl fun _ _ => rfl)
        rfl rfl rfl
  | guard g _ attributes plain =>
      refine Sound.assignAll (s := (s.insertGuard g).2) ?_ (by simp) plain
      exact h.of_assigned (.of_eq (fun _ => List.prefix_rfl) (Nat.le_refl _) rfl rfl fun _ _ => rfl)
        rfl rfl rfl
  | serial attributes plain =>
      have numbered : s.nextSerial.2.Sound := by
        refine h.of_extends (Effect.serial (w := w) [] plainAttributes_nil).extends rfl ?_ h.plain
        exact fun n name hn => h.fresh n name (Nat.le_of_succ_le hn)
      refine Sound.assignAll (s := s.nextSerial.2) numbered ?_ plain
      intro n hn
      cases hn
      exact Nat.lt_succ_self _

end Store

open Program Store

/-! ## Terms of growth -/

/-- Everybody lets the store grow, and guards may refuse. -/
def growth : Terms Store where
  inv := Sound
  rely _ s s' := s.Extends s'
  keeps _ s s' := s.Extends s'
  enters _ _ _ _ := True
  refuses := True

theorem steady_growth : growth.Steady where
  refl _ s _ := .refl s
  trans _ _ _ _ := .trans
  inv_setGuard _ lock g h := h.setGuard lock g
  rely_setGuard _ s lock g _ := extends_setGuard s lock g

/-- An assertion that lasts while a store grows and a thread goes on. -/
def Lasting (J : Progress Store → Store → Prop) : Prop :=
  ∀ g g' s s', J g s → g.trail <+: g'.trail → s.Extends s' → J g' s'

theorem lasting_true : Lasting fun _ _ => True := fun _ _ _ _ _ _ _ => trivial

section Growth

variable {α β : Type} {J : Progress Store → Store → Prop} {g : Progress Store} {s : Store}

/-- A tame action does no harm to what lasts. -/
theorem wp_tame (hJ : Lasting J) {p : Action α} (hp : p.Tame true) (h : J g s) :
    p.wp growth (fun _ => J) g s := by
  refine wp_of_every J ?_ ?_ ?_ hp.every h
  · intro f g s s' heffect hJs hext hsound
    have grown := (heffect s').extends
    refine ⟨grown, (heffect s').sound hsound, ?_⟩
    exact hJ g _ s _ hJs (List.prefix_append _ _) (hext.trans grown)
  · intro g s s' lock mode hJs hext _
    exact ⟨trivial, hJ g _ s s' hJs List.prefix_rfl hext, hJ g g s s' hJs List.prefix_rfl hext⟩
  · exact fun g s lock mode hJs => hJ g _ s s hJs List.prefix_rfl (.refl s)

theorem wp_tame_bind (hJ : Lasting J) {Q : Except Fault β → Progress Store → Store → Prop}
    {p : Action α} {k : α → Action β} (hp : p.Tame true) (h : J g s)
    (error : ∀ fault g s, J g s → Q (.error fault) g s)
    (next : ∀ a g s, J g s → (k a).wp growth Q g s) :
    (p >>= k).wp growth Q g s := by
  rw [wp_bind]
  refine wp_mono ?_ (wp_tame hJ hp h)
  intro r g s hJs
  cases r with
  | ok a => exact next a g s hJs
  | error fault => exact error fault g s hJs

/-- An action that stands by the terms, however it ends. -/
def Abides (p : Action α) : Prop := ∀ g s, p.wp growth (fun _ _ _ => True) g s

theorem abides_tame {p : Action α} (hp : p.Tame true) : Abides p :=
  fun _ _ => wp_tame lasting_true hp trivial

theorem abides_bind {p : Action α} {k : α → Action β} (hp : Abides p)
    (hk : ∀ a, Abides (k a)) : Abides (p >>= k) := by
  intro g s
  rw [wp_bind]
  refine wp_mono ?_ (hp g s)
  intro r g s _
  cases r with
  | ok a => exact hk a g s
  | error fault => trivial

theorem abides_ofExcept (r : Except Fault α) : Abides (.ofExcept r) :=
  fun g s => (wp_ofExcept r g s).mpr trivial

theorem abides_attempt {p : Action α} (hp : Abides p) : Abides p.attempt := by
  intro g s
  rw [wp_attempt]
  exact hp g s

theorem abides_documentMake (config : Value) : Abides (DocumentId.make config) := by
  refine abides_bind (abides_tame (tame_settings _ _)) fun settings => ?_
  refine abides_bind (abides_tame (tame_truth _)) fun threadSafe => ?_
  refine abides_bind (abides_tame (tame_viewOfSettings _)) fun view g s => ?_
  rw [Arena.make, wp_bind, wp_bind, ListId.make, wp_update]
  intro s₁ _ hsound₁
  have grown := Effect.list (w := false) (s := s₁)
    (.make (DocumentId.ownershipOf threadSafe) true []) (Guard.free_ofOwnership _ _) []
    plainAttributes_nil
  refine ⟨grown.extends, grown.sound hsound₁, ?_⟩
  have lasting : Lasting fun _ s => s₁.lists.size < s.lists.size :=
    fun _ _ _ _ h _ hext => Nat.lt_of_lt_of_le h hext.lists
  have made : s₁.lists.size < (s₁.insertList (.make (DocumentId.ownershipOf threadSafe) true
      [])).2.lists.size := by
    simp [Store.insertList]
  refine wp_tame_bind lasting (tame_ruleMake _ _ _) made (fun _ _ _ _ => trivial)
    fun phony g s made => ?_
  refine wp_tame_bind lasting (tame_poolMake _ _ _ _) made (fun _ _ _ _ => trivial)
    fun console g s made => ?_
  refine wp_tame_bind lasting (tame_log _ _ _) made (fun _ _ _ _ => trivial) fun _ g s made => ?_
  rw [wp_update]
  intro s₂ hext hsound
  have hlt : s₁.lists.size < s₂.lists.size := Nat.lt_of_lt_of_le made hext.lists
  have found (d : DocumentRecord) (id : DocumentId) :
      (s₂.insertDocument d).2.document id =
        if id.index = s₂.documents.size then d else s₂.document id :=
    Table.get_insert s₂.documents d id.index
  refine ⟨⟨fun _ => List.prefix_rfl, Nat.le_refl _, ?_, ?_, Nat.le_refl _, fun _ _ _ => rfl⟩,
    ⟨hsound.fresh, hsound.plain, ?_⟩, trivial⟩
  · simp [Store.insertDocument]
  · intro id hid
    rw [found, if_neg (Nat.ne_of_lt hid)]
  · intro id hid
    rw [found]
    split
    · exact hlt
    · next hne =>
        have hid : id.index < s₂.documents.size + 1 := by simpa [Store.insertDocument] using hid
        exact hsound.arenas id (by omega)

theorem abides_build (b : Builder) : Abides b.build := by
  refine abides_bind (abides_attempt (abides_documentMake _)) fun r => ?_
  cases r with
  | error fault => exact abides_tame (tame_pure _)
  | ok d =>
      refine abides_bind (abides_tame (tame_read _)) fun record => ?_
      refine abides_bind (abides_tame (Builder.tame_addAll _ _ _ _)) fun outcome => ?_
      exact abides_tame (tame_pure _)

end Growth

end NinjaFile
