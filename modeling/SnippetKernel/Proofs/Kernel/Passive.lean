import Mathlib
import SnippetKernel.Proofs.Kernel.Serialized
import SnippetKernel.Proofs.Wire.Documents

/-! Frames that leave no trace. Looking at bindings, asking for the status, frames that are no requests and code
that is no program leave the engine as it is. Whether such frames came cannot be told from the answers to all
others, apart from what a status says of the process: how long it has run, and how much memory it takes. -/
namespace SnippetKernel

/-- The response without what it says of the process. -/
def Response.withoutFigures : Response → Response
  | .status r =>
    .status { r with
      uptimeSeconds := Double.ofInt64 0, uptimeHuman := "", memoryUsageBytes := none, memoryUsage := "" }
  | r => r

/-- The frame looks at bindings, asks for the status, is no request, or has code that is no program. -/
def isPassive (frame : ByteArray) : Bool :=
  match Request.ofFrame frame with
  | .ok (.execute code) =>
    match Source.parse code with
    | .ok _ => false
    | .error _ => true
  | .ok .reset => false
  | .ok (.inspect _) | .ok .status | .error _ => true

/-- A frame in a sequence from which some are removed. The process is at another point of its life when the frame
comes in the rest of the sequence. -/
structure Arrival where
  frame : ByteArray
  removed : Bool
  vitals : Vitals
  vitalsInRest : Vitals

namespace Listener

variable {e : Engine} {vitals : Vitals} {frame : ByteArray}

theorem foldl_handleNext (done : List Response × Engine) (frames : List (Vitals × ByteArray)) :
    frames.foldl handleNext done = (done.1 ++ (handleAll done.2 frames).1, (handleAll done.2 frames).2) := by
  induction frames generalizing done with
  | nil => simp [handleAll]
  | cons frame rest ih =>
    rw [handleAll, List.foldl_cons, List.foldl_cons, ih, ih (handleNext ([], done.2) frame)]
    simp [handleNext]

theorem handleAll_cons (e : Engine) (vitals : Vitals) (frame : ByteArray) (rest : List (Vitals × ByteArray)) :
    handleAll e ((vitals, frame) :: rest)
      = ((e.handleFrame vitals frame).1 :: (handleAll (e.handleFrame vitals frame).2 rest).1,
          (handleAll (e.handleFrame vitals frame).2 rest).2) := by
  rw [handleAll, List.foldl_cons, foldl_handleNext]
  rfl

/-- Code that is no program is not run. -/
theorem execute_noProgram {code : String} {error : Source.SyntaxError} (refused : Source.parse code = .error error) :
    (e.execute code).2 = e := by
  rw [Engine.execute, Machine.interpret, refused]
  rfl

theorem engine_passive (passive : isPassive frame) : (e.handleFrame vitals frame).2 = e := by
  unfold isPassive at passive
  cases decoded : Request.ofFrame frame with
  | error failure => exact handleFrame_of_error decoded
  | ok request =>
    rw [decoded] at passive
    rw [handleFrame_of_ok decoded]
    cases request with
    | execute code =>
      cases parsed : Source.parse code with
      | ok body => simp [parsed] at passive
      | error error => exact execute_noProgram parsed
    | reset => cases passive
    | inspect pattern => rw [Engine.dispatch]
    | status => rw [Engine.dispatch]

/-- What is known of the process shows in the figures alone. -/
theorem handleFrame_figures (e : Engine) (vitals other : Vitals) (frame : ByteArray) :
    (e.handleFrame vitals frame).1.withoutFigures = (e.handleFrame other frame).1.withoutFigures ∧
      (e.handleFrame vitals frame).2 = (e.handleFrame other frame).2 := by
  cases decoded : Request.ofFrame frame with
  | error failure => simp [Engine.handleFrame, decoded]
  | ok request =>
    rw [handleFrame_of_ok decoded, handleFrame_of_ok decoded]
    cases request with
    | execute code => simp [Engine.dispatch]
    | inspect pattern => simp [Engine.dispatch]
    | reset => simp [Engine.dispatch]
    | status => simp [Engine.dispatch, Engine.status, Response.withoutFigures]

end Listener

end SnippetKernel
