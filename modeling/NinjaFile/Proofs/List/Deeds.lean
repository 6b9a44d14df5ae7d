import NinjaFile.Proofs.Program.Discipline
import NinjaFile.Proofs.Store.Alike
import NinjaFile.Script.Calling

/-!
# What can be done to a list

The methods of a list in two parts.  First comes what is done before the guard of the list
is asked for: the items of what a list is extended with are taken, and nothing else.  Then
comes what is done to the list itself.
-/

namespace NinjaFile

open Program Store

/-- A method of a list with its arguments. -/
inductive ListDeed where
  | add (item : Value)
  | extend (items : Value)
  | adopt (ownership : Value)
  | snapshot
  | iterate
  | length
  | truth
  | item (index : Value)

namespace ListDeed

/-- The items that are to be written. -/
def offer : ListDeed → Action (List Value)
  | .add v => return [v]
  | .extend items => items.iterate
  | _ => return []

/-- What is done to the list with the items that are offered to it. -/
def onList (l : ListId) : ListDeed → List Value → Action Value
  | .add v, _ => do return .int (← l.add v)
  | .extend _, items => do
      l.extend items
      return .null
  | .adopt ownership, _ => (Value.object (.list l)).adopt ownership
  | .snapshot, _ => do return .tuple (← l.snapshot)
  | .iterate, _ => do return .list (← l.snapshot)
  | .length, _ => do return .int (← l.length)
  | .truth, _ => do return .bool (0 < (← l.length))
  | .item index, _ => l.item index

def action (l : ListId) (deed : ListDeed) : Action Value := do
  deed.onList l (← deed.offer)

/-- A list that is to take on the ownership it has is given back without a look at its guard. -/
def asksGuard : ListDeed → Bool
  | .adopt _ => false
  | _ => true

/-- Whether items are added to the list. -/
def writes : ListDeed → Bool
  | .add _ | .extend _ => true
  | _ => false

def methodName : ListDeed → String
  | .add _ => "add"
  | .extend _ => "extend"
  | .adopt _ => "adopt"
  | .snapshot => "snapshot"
  | .iterate => Script.iterateName
  | .length => Script.lengthName
  | .truth => Script.truthName
  | .item _ => Script.itemName

def arguments : ListDeed → List Value
  | .add v | .extend v | .adopt v | .item v => [v]
  | .snapshot | .iterate | .length | .truth => []

theorem exists_method (l : ListId) (deed : ListDeed) :
    ∃ m ∈ Script.listMethods l, m.name = deed.methodName ∧
      m.run deed.arguments = deed.action l := by
  cases deed with
  | add v => exact ⟨_, .head _, rfl, rfl⟩
  | extend items => exact ⟨_, .tail _ (.head _), rfl, rfl⟩
  | adopt ownership => exact ⟨_, .tail _ (.tail _ (.head _)), rfl, rfl⟩
  | snapshot => exact ⟨_, .tail _ (.tail _ (.tail _ (.head _))), rfl, rfl⟩
  | truth =>
      refine ⟨_, .tail _ (.tail _ (.tail _ (.tail _ (.head _)))), rfl, ?_⟩
      exact Program.bind_assoc l.length _ _
  | iterate => exact ⟨_, List.mem_append_right _ (.head _), rfl, rfl⟩
  | length => exact ⟨_, List.mem_append_right _ (.tail _ (.head _)), rfl, rfl⟩
  | item index =>
      exact ⟨_, List.mem_append_right _ (.tail _ (.tail _ (.head _))), rfl, rfl⟩

end ListDeed

/-! ## What comes first -/

/-- A step that changes nothing. -/
def Inert (f : Store → Store) : Prop := ∀ s, f s = s

/-- A program that looks at lists through their guards and takes items out of sources. -/
abbrev Program.Gathers {α : Type} (p : Action α) : Prop := p.Disciplined Aside Inert none

section

variable {α β : Type}

theorem gathers_bind {p : Action α} {k : α → Action β} (hp : p.Gathers)
    (hk : ∀ a, (k a).Gathers) : (p >>= k).Gathers :=
  disciplined_bind hp hk

theorem gathers_read (f : Store → α) : (Action.read f).Gathers :=
  ⟨fun s => ⟨s.logging, s.sources, rfl⟩, fun inside => absurd rfl inside, fun _ => rfl⟩

theorem gathers_guarded {body : Action α} (lock : LockId) (mode : Mode)
    (h : body.Swift fun f => Aside f ∧ Inert f) : (guarded lock mode body).Gathers :=
  disciplined_guarded lock mode h

theorem swift_look (f : Store → α) : (Action.read f).Swift fun f => Aside f ∧ Inert f :=
  ⟨⟨fun s => ⟨s.logging, s.sources, rfl⟩, fun _ => rfl⟩, fun _ => trivial⟩

theorem gathers_snapshot (l : ListId) : l.snapshot.Gathers := gathers_guarded _ _ (swift_look _)

theorem gathers_length (l : ListId) : l.length.Gathers := gathers_guarded _ _ (swift_look _)

theorem gathers_item (l : ListId) (index : Value) : (l.item index).Gathers :=
  gathers_guarded _ _ (swift_bind (swift_look _) fun _ => swift_ofExcept _)

theorem gathers_takeItems (id : SourceId) : id.takeItems.Gathers := by
  refine disciplined_update fun s => ?_
  dsimp only
  split
  · exact ⟨s.logging, s.sources, rfl⟩
  · exact aside_modifySource id _ s

theorem gathers_close (id : SourceId) : id.close.Gathers := by
  refine gathers_bind (gathers_read _) fun source => ?_
  split
  · rfl
  · refine gathers_bind (disciplined_modify (aside_modifySource id _)) fun _ => ?_
    refine gathers_bind ⟨rfl, rfl⟩ fun _ => ?_
    refine gathers_bind (disciplined_modify (aside_modifySource id _)) fun _ => ?_
    split <;> rfl

theorem gathers_iterate (v : Value) : v.iterate.Gathers := by
  rw [Value.iterate]
  split
  · rfl
  · exact gathers_snapshot _
  · refine gathers_bind (gathers_takeItems _) fun _ => ?_
    refine gathers_bind (disciplined_ofExcept _) fun _ => ?_
    exact gathers_bind (gathers_close _) fun _ => rfl
  · rfl

end

theorem ListDeed.gathers_offer (deed : ListDeed) : deed.offer.Gathers := by
  cases deed with
  | extend items => exact gathers_iterate items
  | _ => rfl

end NinjaFile
