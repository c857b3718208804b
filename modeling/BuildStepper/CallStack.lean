import BuildStepper.Frame

/-!
# The call stack

The tasks in execution, innermost first. A task that finishes is taken off by its identity, wherever
it stands; usually it is the innermost one.
-/

namespace BuildStepper

/-- The tasks in execution. -/
structure CallStack where
  /-- Innermost first. -/
  frames : List CallFrame := []
deriving DecidableEq, Repr, Inhabited

namespace CallStack

/-- A task starts. -/
def push (s : CallStack) (f : CallFrame) : CallStack :=
  ⟨f :: s.frames⟩

/-- The innermost frame with the identity. -/
def find? (s : CallStack) (id : FrameId) : Option CallFrame :=
  s.frames.find? (·.id = id)

/-- A task finishes: the innermost frame with its identity is taken off, if there is one. -/
def pop (s : CallStack) (id : FrameId) : CallStack :=
  ⟨s.frames.eraseP (·.id = id)⟩

/-- The innermost frame. -/
def top? (s : CallStack) : Option CallFrame :=
  s.frames.head?

/-- Whether no task is in execution. -/
def isEmpty (s : CallStack) : Bool :=
  s.frames.isEmpty

/-- A frame is pushed in front of all others. -/
@[simp] theorem frames_push (s : CallStack) (f : CallFrame) :
    (s.push f).frames = f :: s.frames := rfl

/-- Of the frames with an identity the innermost one is popped. -/
@[simp] theorem frames_pop (s : CallStack) (id : FrameId) :
    (s.pop id).frames = s.frames.eraseP (·.id = id) := rfl

/-- The identities of the tasks in execution, innermost first. -/
def ids (s : CallStack) : List FrameId :=
  s.frames.map CallFrame.id

/-- Pushing puts the identity of the frame in front. -/
@[simp] theorem ids_push (s : CallStack) (f : CallFrame) : (s.push f).ids = f.id :: s.ids := rfl

/-- Popping takes the identity off, wherever it stands. -/
@[simp] theorem ids_pop (s : CallStack) (id : FrameId) : (s.pop id).ids = s.ids.erase id := by
  unfold ids
  rw [frames_pop, List.erase_eq_eraseP', List.eraseP_map]
  rfl

/-- The identity of the innermost frame is the first one. -/
theorem map_id_top? (s : CallStack) : s.top?.map CallFrame.id = s.ids.head? := by
  simp [top?, ids]

/-- The task that started last is the first to be found. -/
@[simp] theorem pop_push_self (s : CallStack) (f : CallFrame) : (s.push f).pop f.id = s := by
  simp [push, pop]

end CallStack

end BuildStepper
