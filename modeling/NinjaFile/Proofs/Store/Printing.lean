import NinjaFile.Proofs.Store.Alike
import NinjaFile.Rendering

/-!
# Printing aside

Whatever is printed, and whatever it looks at for that, no list and no statement changes:
at most, sources lose their items.
-/

namespace NinjaFile

open Program Store

variable {α : Type} {p : Printer}

theorem aside_storedMember (v : Value) (name : String) : (v.storedMember name).Every Aside := by
  refine every_bind (aside_read _) fun found => ?_
  split <;> trivial

theorem aside_member (v : Value) (name : String) : (v.member name).Every Aside := by
  cases v with
  | object o =>
      cases o with
      | handle h =>
          change (h.member name).Every Aside
          rw [Handle.member]
          split
          · refine every_bind (looks_statement h).aside fun w => ?_
            split
            · exact aside_storedMember w name
            · trivial
          · exact aside_storedMember _ name
      | _ => exact aside_storedMember _ name
  | _ => exact aside_storedMember _ name

theorem aside_truth (v : Value) : v.truth.Every Aside := (quiet_truth v).aside

theorem aside_spread (v : Value) : v.spread.Every Aside := by
  rw [Value.spread]
  split
  · trivial
  · exact aside_iterate v

theorem aside_valueSnapshot (v : Value) : v.snapshot.Every Aside := by
  rw [Value.snapshot.eq_def]
  split <;> first | exact aside_snapshot _ | trivial

/-- A printer that changes no list and no statement, whatever it prints and how. -/
def Printer.Aside (p : Printer) : Prop := ∀ manner v, (p manner v).Every NinjaFile.Aside

section

variable (hp : p.Aside)

include hp

/-! ## Parts of values -/

theorem aside_say (v : Value) : (p.say v).Every Aside := by
  rw [Printer.say.eq_def]
  split
  · trivial
  · exact hp _ _

theorem aside_sayMember (v : Value) (name : String) : (p.sayMember v name).Every Aside :=
  every_bind (aside_member v name) fun _ => aside_say hp _

theorem aside_showAll (items : List Value) : (p.showAll items).Every Aside := by
  induction items with
  | nil => trivial
  | cons v rest ih => exact every_bind (hp _ v) fun _ => every_bind ih fun _ => trivial

theorem aside_showEntries (entries : List (Value × Value)) : (p.showEntries entries).Every Aside := by
  induction entries with
  | nil => trivial
  | cons entry rest ih =>
      refine every_bind (hp _ entry.1) fun _ => every_bind (hp _ entry.2) fun _ => ?_
      exact every_bind ih fun _ => trivial

theorem aside_showFields (v : Value) (names : List String) : (p.showFields v names).Every Aside := by
  induction names with
  | nil => trivial
  | cons name rest ih =>
      refine every_bind (every_bind (aside_member v name) fun _ => hp _ _) fun _ => ?_
      exact every_bind ih fun _ => trivial

theorem aside_reportText (v : Value) : (Display.reportText p v).Every Aside := by
  refine every_bind (every_bind (aside_member v _) fun found => ?_) fun arguments => ?_
  · split <;> trivial
  · split
    · trivial
    · exact aside_say hp _
    · exact hp _ _

theorem aside_objectText (o : Object) : (Display.objectText p o).Every Aside := by
  rw [Display.objectText.eq_def]
  split
  · refine every_bind (aside_snapshot _) fun items => every_bind (aside_showAll hp items) fun _ => ?_
    refine every_bind (aside_member _ _) fun own => ?_
    exact every_bind (aside_sayMember hp own _) fun _ => trivial
  · refine every_bind (aside_read _) fun place => every_bind (aside_say hp place) fun _ => ?_
    refine every_bind (looks_statement _).aside fun statement => ?_
    exact every_bind (hp _ statement) fun _ => trivial
  · refine every_bind (every_bind (aside_member _ _) fun found => ?_) fun arguments => ?_
    · split <;> trivial
    · split <;> exact every_bind (hp _ _) fun _ => trivial
  · exact aside_read _
  · split
    · exact every_bind (aside_showFields hp _ _) fun _ => trivial
    · trivial

theorem aside_shownText (v : Value) : (Display.text p v).Every Aside := by
  rw [Display.text.eq_def]
  split <;> first
    | trivial
    | exact aside_objectText hp _
    | exact every_bind (aside_showAll hp _) fun _ => trivial
    | exact every_bind (aside_showEntries hp _) fun _ => trivial

/-! ## Statements and files -/

theorem aside_blockLine (v : Value) : (p.blockLine v).Every Aside := by
  refine every_bind (aside_read _) fun stored => ?_
  split
  · trivial
  · split <;> first
      | trivial
      | exact every_bind (aside_say hp _) fun _ => trivial

theorem aside_block (v : Value) : (p.block v).Every Aside := by
  refine every_bind (aside_member v _) fun bindings => every_bind (aside_iterate bindings) fun items => ?_
  induction items with
  | nil => trivial
  | cons v rest ih =>
      exact every_bind (aside_blockLine hp v) fun _ => every_bind ih fun _ => trivial

theorem aside_ruleOf (v : Value) : (p.ruleOf v).Every Aside :=
  every_bind (aside_sayMember hp v _) fun _ => every_bind (aside_block hp v) fun _ => trivial

theorem aside_poolOf (v : Value) : (p.poolOf v).Every Aside := by
  refine every_bind (aside_member v _) fun flag => every_bind (aside_truth flag) fun builtIn => ?_
  split
  · trivial
  · exact every_bind (aside_sayMember hp v _) fun _ => every_bind (aside_block hp v) fun _ => trivial

theorem aside_edgeOf (v : Value) : (p.edgeOf v).Every Aside := by
  have list (name : String) {k : List Value → Action Statement} (hk : ∀ items, (k items).Every Aside) :
      (v.member name >>= fun w => w.iterate >>= k).Every Aside :=
    every_bind (aside_member v name) fun w => every_bind (aside_iterate w) hk
  have spread (name : String) {k : List Value → Action Statement}
      (hk : ∀ items, (k items).Every Aside) :
      (v.member name >>= fun w => w.spread >>= k).Every Aside :=
    every_bind (aside_member v name) fun w => every_bind (aside_spread w) hk
  refine spread _ fun outputs => list _ fun implicitOutputs => ?_
  refine every_bind (aside_member v _) fun ruleName => ?_
  refine spread _ fun inputs => list _ fun implicitInputs => list _ fun orderOnlyInputs => ?_
  refine list _ fun validations => every_bind (every_ofExcept _) fun paths => ?_
  exact every_bind (aside_block hp v) fun _ => trivial

omit hp in
theorem aside_defaultsOf (v : Value) : (Printer.defaultsOf v).Every Aside := by
  refine every_bind (aside_member v _) fun w => every_bind (aside_spread w) fun outputs => ?_
  exact every_bind (every_ofExcept _) fun _ => trivial

theorem aside_statementOf (k : Kind) (v : Value) : (p.statementOf k v).Every Aside := by
  cases k with
  | binding => exact every_bind (aside_blockLine hp v) fun _ => trivial
  | rule => exact aside_ruleOf hp v
  | build => exact aside_edgeOf hp v
  | pool => exact aside_poolOf hp v
  | defaults => exact aside_defaultsOf v
  | comment | subninja | inclusion => exact every_bind (aside_sayMember hp v _) fun _ => trivial

theorem aside_statement (v : Value) : (p.statement v).Every Aside := by
  refine every_bind (aside_member v _) fun k => ?_
  split
  · exact aside_statementOf hp _ v
  · exact every_bind (aside_say hp _) fun _ => trivial

theorem aside_statements (items : List Value) : (p.statements items).Every Aside := by
  induction items with
  | nil => trivial
  | cons v rest ih =>
      refine every_bind (aside_member v _) fun kind => every_bind (aside_member kind _) fun _ => ?_
      exact every_bind (aside_statement hp v) fun _ => every_bind ih fun _ => trivial

theorem aside_fileText (mark : Value) (statements : List Statement) :
    (p.fileText mark statements).Every Aside := by
  refine every_bind ?_ fun _ => trivial
  rw [Printer.sayMark]
  split
  · trivial
  · exact aside_say hp mark

theorem aside_nodeText {statement : Action Statement} (h : statement.Every Aside) :
    (p.nodeText statement).Every Aside := by
  refine every_bind h fun st => every_bind (every_bind ?_ fun _ => trivial) fun _ => trivial
  rw [Printer.sayMark]
  split
  · trivial
  · exact aside_say hp _

theorem aside_documentText (d : DocumentId) : (p.documentText d).Every Aside := by
  refine every_bind (aside_member _ _) fun place => every_bind (aside_valueSnapshot place) fun items => ?_
  exact every_bind (aside_statements hp items) fun _ => aside_fileText hp _ _

theorem aside_step : p.step.Aside := by
  intro manner v
  rw [Printer.step.eq_def]
  split
  · exact aside_shownText hp v
  · split <;> first
      | trivial
      | exact aside_reportText hp _
      | exact aside_documentText hp _
      | exact aside_nodeText hp (aside_ruleOf hp _)
      | exact aside_nodeText hp (aside_edgeOf hp _)
      | exact aside_nodeText hp (aside_poolOf hp _)
      | exact aside_shownText hp _

end

theorem aside_deep (depth : Nat) : (Printer.deep depth).Aside := by
  induction depth with
  | zero => exact fun _ _ => trivial
  | succ depth ih => exact aside_step ih

/-- Whatever is in a document, rendering it changes no list and no statement. -/
theorem aside_render (d : DocumentId) : d.render.Every Aside :=
  aside_say (aside_deep nestingLimit) d.toValue

end NinjaFile
