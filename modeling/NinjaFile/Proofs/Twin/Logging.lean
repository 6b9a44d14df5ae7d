import NinjaFile.Document
import NinjaFile.Proofs.Twin.Attributes

/-!
# Log lines of twins

What is written to the log depends on the loggers and not on the lines that are there
already, so the same lines are written on either side.
-/

namespace NinjaFile

namespace Logging

/-- The lines that a record comes to. -/
def entry (logging : Logging) (view : View) (level : Int) (text : String) : List String :=
  if logging.isEnabledFor view level then
    ((logging.chain view.name).flatMap (·.handlers)).flatMap fun f =>
      match render? f ⟨canonical view.name, .number level, text⟩ with
      | some line => Text.lines (line ++ "\n")
      | none => []
  else []

theorem log_eq (logging : Logging) (view : View) (level : Int) (text : String) :
    logging.log view level text =
      { logging with lines := logging.lines ++ logging.entry view level text } := by
  rw [log, entry]
  split
  · rfl
  · simp

variable {l l' : Logging}

theorem chain_congr (h : l'.loggers = l.loggers) (name : String) : l'.chain name = l.chain name := by
  have from_ (fuel : Nat) (name : String) : l'.chainFrom fuel name = l.chainFrom fuel name := by
    induction fuel generalizing name with
    | zero => rfl
    | succ fuel ih =>
        rw [chainFrom, chainFrom, find?, find?, h]
        simp only [ih]
  rw [chain, chain, h, from_]

theorem entry_congr (h : l'.loggers = l.loggers) (view : View) (level : Int) (text : String) :
    l'.entry view level text = l.entry view level text := by
  have chain := chain_congr h
  rw [entry, entry, isEnabledFor, isEnabledFor, lets, lets, effectiveLevel, effectiveLevel, chain]

end Logging

open Action Program

namespace Twin

open Store

variable {s s' : Store} {v w : Value}

theorem After.configure (h : s.Twin s') {f : Logging → Logging}
    (loggers : ∀ l l' : Logging, l'.loggers = l.loggers → (f l').loggers = (f l).loggers)
    (lines : ∀ l, (f l).lines = l.lines) :
    After Still s s' { s with logging := f s.logging } { s' with logging := f s'.logging } :=
  ⟨h.withLogging (loggers _ _ h.loggers), ⟨_, _, _, _, rfl, rfl⟩, ⟨_, _, _, _, rfl, rfl⟩, [],
    by simp [lines], by simp [lines]⟩

theorem After.log (h : s.Twin s') (view : View) (level : Int) (text : String) :
    After Still s s' { s with logging := s.logging.log view level text }
      { s' with logging := s'.logging.log view level text } := by
  have entry := Logging.entry_congr h.loggers view level text
  refine ⟨h.withLogging ?_, ⟨_, _, _, _, rfl, rfl⟩, ⟨_, _, _, _, rfl, rfl⟩,
    s.logging.entry view level text, ?_, ?_⟩
  · rw [Logging.log_eq, Logging.log_eq]
    exact h.loggers
  · rw [Logging.log_eq]
  · rw [Logging.log_eq, entry]

theorem alone_log (h : s.Tidy) (view : View) (level : Int) (text : String) :
    (view.log level text).alone s =
      (.ok (), { s with logging := s.logging.log view level text }) := by
  have plain : view.isPlain s = true := by simp [View.isPlain, h.bare view.identity _]
  rw [View.log, alone_read_bind, if_pos plain]
  rfl

theorem inStep_logBy (h : s.Twin s') (view : Option View) (level : Int) (text : String) :
    InStep Still (logBy view level text) (logBy view level text) s s' fun _ _ _ _ => True := by
  cases view with
  | none => exact inStep_pure h trivial
  | some view =>
      exact inStep_of_alone (alone_log h.left view level text) (alone_log h.right view level text)
        (.log h view level text) trivial

/-! ## What is logged -/

theorem Like.logger?_eq {c : Scope} (h : Like c v w) (member : String) :
    w.logger? member = v.logger? member := by
  cases h <;> rfl

theorem inStep_kindWord (h : s.Twin s') (hv : Like (s.scope s') v w) :
    InStep Still v.kindWord w.kindWord s s' fun x y _ _ => y = x := by
  refine inStep_bind (inStep_kindOf h hv) fun kind kind' t t' after like => ?_
  -- Whatever is not a kind is asked for its name, and that is a text.
  have named {lowered : Value → Action String} (text : ∀ s, lowered (.text s) = return s.toLower) :
      InStep Still (kind.member "name" >>= lowered) (kind'.member "name" >>= lowered)
        t t' fun x y _ _ => y = x := by
    refine inStep_bind (inStep_name after.twin like) fun _ _ u u' next found => ?_
    obtain ⟨heq, name, hname⟩ := found
    subst heq hname
    rw [text]
    exact inStep_pure next.twin rfl
  cases like with
  | atom hk =>
      cases kind with
      | kind k => exact inStep_pure after.twin rfl
      | _ => exact named fun _ => rfl
  | @node n _ => cases n <;> exact named fun _ => rfl
  | @fixed o _ => cases o <;> exact named fun _ => rfl
  | _ => exact named fun _ => rfl

/-! ## Views -/

theorem Logging.find?_congr {l l' : Logging} (h : l'.loggers = l.loggers) (name : String) :
    l'.find? name = l.find? name := by
  rw [Logging.find?, Logging.find?, h]

theorem inStep_viewMake (h : s.Twin s') (name : String) (enabled : Bool) (level : Int) :
    InStep Still (View.make name (.bool enabled) (.int level))
      (View.make name (.bool enabled) (.int level)) s s' fun v w _ _ => w = v := by
  have ensured : InStep Still (.modify fun s => { s with logging := s.logging.ensure name })
      (.modify fun s => { s with logging := s.logging.ensure name }) s s' fun _ _ _ _ => True := by
    refine inStep_of_alone rfl rfl (.configure h (f := (·.ensure name)) (fun l l' heq => ?_)
      fun l => ?_) trivial
    · simp only [Logging.ensure, Logging.find?, heq]
      split <;> simp [heq]
    · rw [Logging.ensure]
      split <;> rfl
  refine inStep_bind ensured fun _ _ t t' after _ => ?_
  exact inStep_of_alone rfl rfl (.withSerial after.twin (congrArg (· + 1) after.twin.serial))
    (congrArg (View.mk · name enabled level) after.twin.serial)

theorem After.modifyLogger (h : s.Twin s') (name : String) (f : Logger → Logger) :
    After Still s s' { s with logging := s.logging.modify name f }
      { s' with logging := s'.logging.modify name f } :=
  .configure h (f := (·.modify name f)) (fun l l' heq => by simp only [Logging.modify, heq])
    fun _ => rfl

theorem inStep_lowerLevel (h : s.Twin s') (name : String) (level : Int) :
    InStep Still (View.lowerLevel name (.int level)) (View.lowerLevel name (.int level)) s s'
      fun _ _ _ _ => True := by
  have own : s'.logging.ownLevel name = s.logging.ownLevel name := by
    rw [Logging.ownLevel, Logging.ownLevel, Logging.find?_congr h.loggers]
  refine inStep_bind (inStep_read h (Q := fun x y _ _ => y = x) own) fun _ own t t' after heq => ?_
  subst heq
  refine inStep_bind (inStep_same after.twin rfl) fun _ lower t t' after heq => ?_
  subst heq
  cases lower with
  | false => exact inStep_pure after.twin trivial
  | true => exact inStep_of_alone rfl rfl (.modifyLogger after.twin name _) trivial

theorem inStep_bringHandler (h : s.Twin s') (name format : String) :
    InStep Still (View.bringHandler name (.text format)) (View.bringHandler name (.text format)) s s'
      fun _ _ _ _ => True := by
  have has : s'.logging.hasHandler name = s.logging.hasHandler name := by
    rw [Logging.hasHandler, Logging.hasHandler, Logging.handlers, Logging.handlers,
      Logging.find?_congr h.loggers]
  have formatted : Steady (Logging.formatOf (.text format)) := by
    refine .bind (steady_pure (Value.text format).isTrue) fun given => ?_
    split
    · dsimp only
      split
      · exact steady_pure _
      · exact steady_fail _
    · exact steady_pure _
  refine inStep_bind (inStep_read h (Q := fun x y _ _ => y = x) has) fun _ has t t' after heq => ?_
  subst heq
  split
  · exact inStep_pure after.twin trivial
  · refine inStep_bind (formatted.inStep after.twin) fun _ format t t' after heq => ?_
    subst heq
    exact inStep_of_alone rfl rfl (.modifyLogger after.twin name _) trivial

theorem inStep_ofSettings (h : s.Twin s') (name format : String) (enabled : Bool) (level : Int) :
    let settings : List (String × Value) := [("name", .text name), ("is_enabled", .bool enabled),
      ("level", .int level), ("format", .text format)]
    InStep Still (View.ofSettings settings) (View.ofSettings settings) s s' fun v w _ _ => w = v := by
  have named : Steady (Logging.nameOf (.text name)) := by
    refine .bind (steady_pure (Value.text name).isTrue) fun given => ?_
    split <;> exact steady_pure _
  refine inStep_bind (named.inStep h) fun _ name t t' after heq => ?_
  subst heq
  refine inStep_bind (inStep_viewMake after.twin name enabled level) fun _ view t t' after heq => ?_
  subst heq
  refine inStep_bind ((steady_pure enabled).inStep after.twin) fun _ on t t' after heq => ?_
  subst heq
  split
  · refine inStep_bind (inStep_lowerLevel after.twin name level) fun _ _ t t' after _ => ?_
    refine inStep_bind (inStep_bringHandler after.twin name format) fun _ _ t t' after _ => ?_
    exact inStep_pure after.twin rfl
  · exact inStep_pure after.twin rfl

end Twin

end NinjaFile
