/-
Renderers own everything that is drawn: they place markers, show frames and clear the picture.
Showing and clearing may fault, and leave the renderer as far as they got.
-/
import BlochSphere.Frame

namespace BlochSphere

class Renderer (ρ : Type) (α : outParam Type) where
  addMarker : ρ → Vec3 α → Handle × ρ
  render : ρ → Frame α → Except Fault Unit × ρ
  clear : ρ → Except Fault Unit × ρ

variable {α : Type}

/-- Draws nothing and only counts markers, from zero after each clearing. -/
structure Discard (α : Type) where
  next : Handle

def Discard.new : Discard α := ⟨0⟩

instance : Renderer (Discard α) α where
  addMarker r _ := (r.next, ⟨r.next + 1⟩)
  render r _ := (.ok (), r)
  clear _ := (.ok (), ⟨0⟩)

/-- Keeps every frame; its markers are numbered on through clearings. -/
structure Recorder (α : Type) where
  next : Handle
  frames : Array (Frame α)
  clears : Nat

def Recorder.new (first : Handle) : Recorder α := ⟨first, #[], 0⟩

instance : Renderer (Recorder α) α where
  addMarker r _ := (r.next, { r with next := r.next + 1 })
  render r frame := (.ok (), { r with frames := r.frames.push frame })
  clear r := (.ok (), { r with clears := r.clears + 1 })

end BlochSphere
