import GuardedFlow.Predicate.Compile

/-!
# Causes

Why a step failed. A cause is a message, or a fault that names the processor or the pipeline it
belongs to, possibly below others that say in which context it arose. A fault is recognised below
any number of contexts, and as a context itself (`Cause.isFault`), so that a failure which already
names its processor is not attributed a second time.
-/

namespace GuardedFlow

/-- Why a step cannot be added to a pipeline. -/
inductive StepError where
  | guard (e : CompileError)
  | duplicate (pipeline processor : String)
deriving Repr

def StepError.message : StepError → String
  | guard e => "Invalid step condition: " ++ e.message
  | duplicate pipeline processor =>
    "Duplicate processor '" ++ processor ++ "' in pipeline '" ++ pipeline ++ "'"

/-- Why a step failed. -/
inductive Cause where
  | message (text : String)
  /-- A cause with something said about where it arose, in a message or by a fault. -/
  | within (about inner : Cause)
  /-- The processor gave up. -/
  | processing (processor : String) (source : Cause)
  /-- The processor failed in a way it did not foresee. -/
  | unhandled (processor : String) (source : Cause)
  | step (e : StepError)
deriving Repr

namespace Cause

/-- A cause with a message that says where it arose. -/
def context (text : String) (inner : Cause) : Cause := within (message text) inner

/-- The outermost message. -/
def text : Cause → String
  | message s => s
  | within about _ => about.text
  | processing processor source => "Processor '" ++ processor ++ "' failed: " ++ source.text
  | unhandled processor source =>
    "Unhandled error in processor '" ++ processor ++ "': " ++ source.text
  | step e => e.message

/-- All messages from the outermost to the innermost. Of a context only the outermost counts. -/
def chain : Cause → List String
  | message s => [s]
  | within about inner => about.text :: inner.chain
  | c@(processing _ source) => c.text :: source.chain
  | c@(unhandled _ source) => c.text :: source.chain
  | step (.guard e) => [(StepError.guard e).message, e.message]
  | step e => [e.message]

def full (c : Cause) : String := ": ".intercalate c.chain

/-- Whether a cause is a fault that is in no context. -/
def isBareFault : Cause → Bool
  | message _ => false
  | within _ _ => false
  | _ => true

/-- The outermost fault among the contexts of a cause, or else the cause below all of them. -/
def origin : Cause → Cause
  | within about inner => if about.isBareFault then about else inner.origin
  | c => c

/-- Whether a cause is a fault, possibly below contexts, or has one for a context. -/
def isFault (c : Cause) : Bool := c.origin.isBareFault

/-- A fault about a failure attributes it just as a fault below a message does. -/
example (source inner : Cause) :
    isFault (within (processing "load" source) inner) = true ∧
    isFault (context "while loading" (processing "load" source)) = true ∧
    isFault (context "while loading" (message "timed out")) = false := ⟨rfl, rfl, rfl⟩

end Cause

end GuardedFlow
