import StoryMarkup.Markup.Sigil
import StoryMarkup.Proofs.Script.Bond
import StoryMarkup.Render.Reference

/-! References under comparison: bonded machines are kept together by every reference. -/
namespace StoryMarkup.Script.Bond

open Markup (Access ExprSource)
open Render (accessStep callWithReceiver follow resolve within)

variable {ω ω' : Type} (B : Bond ω ω') {n : Nat} {α : Type}

lemma within_eq (src : String) (x : ScriptM ω α) : Render.within src x = x.adaptExcept (src, ·) := by
  funext m
  simp only [Render.within, EStateM.adaptExcept]
  cases x m <;> rfl

lemma within {x : ScriptM ω α} {y : ScriptM ω' α} (src : String) (h : B.Lockstep n x y) :
    B.Lockstep n (within src x) (within src y) := by
  rw [within_eq, within_eq]
  exact .adaptExcept _ h

variable {invoke : Invoker ω} {invoke' : Invoker ω'}
  (hlibrary : ∀ n b args, B.Lockstep n (ScriptM.callBuiltin b args) (ScriptM.callBuiltin b args))
  (hinvoke : ∀ n id name args, B.Lockstep n (invoke id name args) (invoke' id name args))
include hlibrary hinvoke

lemma evalSource (code : String) : B.Lockstep n (evalSource B.left invoke code) (evalSource B.right invoke' code) :=
  .bind (B.lift _) fun e => B.evalUsing hlibrary hinvoke e

lemma callWithReceiver (f : Value) (recv : Option Value) (args : List ExprSource) :
    B.Lockstep n (callWithReceiver B.left invoke f recv args) (callWithReceiver B.right invoke' f recv args) :=
  .bind (.mapM args fun arg => B.evalSource hlibrary hinvoke arg.code) fun values =>
    B.calls hlibrary hinvoke B.depth_eq f recv values

lemma accessStep (current : Value) (recv : Option Value) (a : Access) :
    B.Lockstep n (accessStep B.left invoke current recv a) (accessStep B.right invoke' current recv a) := by
  cases a with
  | field name raw => exact .bind (B.getProperty _ _) fun _ => .pure _
  | index key raw =>
    exact .bind (B.evalSource hlibrary hinvoke key) fun k => .bind (B.getProperty _ _) fun _ => .pure _
  | call args raw => exact .bind (B.callWithReceiver hlibrary hinvoke current recv args) fun _ => .pure _

lemma follow (src : String) (current : Value) (recv : Option Value) (accesses : List Access) :
    B.Lockstep n (follow B.left invoke src current recv accesses)
      (follow B.right invoke' src current recv accesses) := by
  induction accesses generalizing src current recv with
  | nil => exact .pure _
  | cons a rest ih => exact .bind (B.within _ (B.accessStep hlibrary hinvoke current recv a)) fun _ => ih _ _ _

lemma resolve (scope : Scope) (base : String) (accesses : List Access) :
    B.Lockstep n (resolve B.left invoke scope base accesses)
      (resolve B.right invoke' scope base accesses) := by
  unfold Render.resolve
  refine .bind (B.within _ (B.scopeValue scope base)) fun first =>
    .bind (B.follow hlibrary hinvoke _ first none _) fun (src, current, recv) => ?_
  dsimp only
  split
  · exact .pure _
  · exact .pure _
  · exact .bind (B.within _ (B.callWithReceiver hlibrary hinvoke _ recv _)) fun _ => .pure _

end StoryMarkup.Script.Bond

namespace StoryMarkup.Render

open Script

def Resolved.isText (s : String) : Resolved → Bool
  | .value (.text t) => t == s
  | _ => false

/-- A key that assigns to what it is the key of: the reference reads the object first, the
expression the new value. -/
theorem key_evaluated_before_target : let env : Env := { story := 0, temp := 1, constants := 2 }
    let m : Machine Unit :=
      { heap := { objects := #[.ofList [("a", .object 3)], .empty, .empty, .ofList [("x", .text "q")]] }, host := () }
    let accesses := [.index "story.a = \"x\"" "[$a = \"x\"]"]
    ((resolve env noInvoker .story "a" accesses).run' m).any (·.isText "q") = true ∧
    Markup.writeExpression (Markup.Template.describe .story "a" accesses).toList = .ok "story.a[story.a = \"x\"]" ∧
    ((evalSource env noInvoker "story.a[story.a = \"x\"]").run' m).any (·.isUndefined) = true :=
  ⟨by decide +kernel, rfl, by decide +kernel⟩

end StoryMarkup.Render
