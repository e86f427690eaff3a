/-
Frame callbacks. Each requested callback runs once, in the next batch; what a running callback
requests waits for the batch after that.
-/

namespace BlochSphere

/-- The callbacks that wait for the next batch, in the order they were requested. -/
structure FrameQueue (κ : Type) where
  pending : List κ

namespace FrameQueue

variable {κ : Type}

def empty : FrameQueue κ := ⟨[]⟩

def request (q : FrameQueue κ) (callback : κ) : FrameQueue κ := ⟨q.pending ++ [callback]⟩

def requestAll (q : FrameQueue κ) (callbacks : List κ) : FrameQueue κ :=
  callbacks.foldl request q

/-- The next batch, and a queue without it. -/
def take (q : FrameQueue κ) : List κ × FrameQueue κ := (q.pending, empty)

end FrameQueue

/-- A callback that logs its name and then requests more callbacks, in order. -/
inductive Callback (ι : Type) where
  | node (name : ι) (kids : List (Callback ι))

namespace Callback

variable {ι : Type}

def name : Callback ι → ι
  | node name _ => name

def kids : Callback ι → List (Callback ι)
  | node _ kids => kids

/-- Runs a callback: its name is logged and its kids are requested. -/
def run (log : List ι) (q : FrameQueue (Callback ι)) (callback : Callback ι) : List ι × FrameQueue (Callback ι) :=
  (log ++ [callback.name], q.requestAll callback.kids)

/-- Runs one batch and returns the names in the order in which they were logged. -/
def step (q : FrameQueue (Callback ι)) : List ι × FrameQueue (Callback ι) :=
  let (batch, q) := q.take
  batch.foldl (fun (log, q) callback => run log q callback) ([], q)

/-- What one batch did: how many callbacks waited before it, which ran, and how many wait after. -/
structure Batch (ι : Type) where
  before : Nat
  ran : List ι
  after : Nat

/-- The number of callbacks of a forest. -/
def count : List (Callback ι) → Nat
  | [] => 0
  | node _ kids :: rest => 1 + count kids + count rest

/-- Steps until a batch ran nothing, `turns` times at most; the empty batch is listed too. -/
def batches : (turns : Nat) → FrameQueue (Callback ι) → List (Batch ι)
  | 0, _ => []
  | turns + 1, q =>
    let (ran, after) := step q
    let batch := ⟨q.pending.length, ran, after.pending.length⟩
    if ran.isEmpty then [batch] else batch :: batches turns after

/-- Requests every tree of a forest and steps until nothing is left to run. -/
def runAll (forest : List (Callback ι)) : List (Batch ι) :=
  batches (count forest + 1) (FrameQueue.empty.requestAll forest)

end Callback

/-! ## A scheduler that runs by itself -/

/-- What can be requested of a ticker: a callback of a forest, or a first one that requests all trees of a
forest and logs nothing. -/
inductive Task (ι : Type) where
  | first (forest : List (Callback ι))
  | node (callback : Callback ι)

/-- Runs a task: what it logs is added to the log and what it asks for is requested. -/
def Task.run {ι : Type} (log : List ι) (q : FrameQueue (Task ι)) : Task ι → List ι × FrameQueue (Task ι)
  | first forest => (log, q.requestAll (forest.map node))
  | node callback => (log ++ [callback.name], q.requestAll (callback.kids.map node))

/-- A loop that runs a batch at every tick it gets. `batch` is what is left of the batch that runs, `due`
says whether a tick waits for the loop, and `left` whether the loop has ended. -/
structure Ticker (ι : Type) where
  waiting : FrameQueue (Task ι)
  batch : List (Task ι)
  due : Bool
  left : Bool
  log : List ι

/-- What happens to a ticker: its clock ticks, its loop takes its next step, or its loop is told to end. -/
inductive Moment where
  | tick
  | turn
  | quit
  deriving DecidableEq, Repr

namespace Ticker

variable {ι : Type}

def new : Ticker ι := ⟨FrameQueue.empty, [], false, false, []⟩

def request (t : Ticker ι) (task : Task ι) : Ticker ι := { t with waiting := t.waiting.request task }

/-- One step of the loop: the next callback of the batch runs. When there is none the loop waits for a
tick, which starts a batch of all that waits. -/
def turn (t : Ticker ι) : Ticker ι :=
  match t.batch with
  | task :: rest =>
    let (log, waiting) := task.run t.log t.waiting
    { t with waiting, batch := rest, log }
  | [] =>
    if t.due && !t.left then
      let (batch, waiting) := t.waiting.take
      { t with waiting, batch, due := false }
    else t

/-- A tick that finds another one waiting is lost, and the loop ends only between two batches. -/
def step (t : Ticker ι) : Moment → Ticker ι
  | .tick => { t with due := true }
  | .turn => t.turn
  | .quit => if t.batch.isEmpty then { t with left := true } else t

def run (t : Ticker ι) (moments : List Moment) : Ticker ι := moments.foldl step t

/-- The clock ticks as often as given, and the loop takes a step after every tick. -/
def regular (ticks : Nat) : List Moment := (List.replicate ticks [.tick, .turn]).flatten

end Ticker

/-- The order in which a ticker runs the callbacks of a forest when its first callback requests all the
trees. -/
def Callback.order {ι : Type} (forest : List (Callback ι)) : List ι :=
  ((Ticker.new.request (.first forest)).run (Ticker.regular (2 * count forest + 2))).log

end BlochSphere
