import PacketOffload.Session

/-!
# Scripts

What is done to a device in one go is written down first, as a script: register writes and memory
writes in their order, and a refusal where something turned out to be impossible. A session performs
a script until a step fails. Apart from refusals, a step is one `write_register` or one
`write_mem_word` of the session.

Main statements: a script performed in two parts is performed as a whole (`perform_append`), and
what fails in the first part keeps the second from beginning (`perform_append_of_error`). -/

namespace PacketOffload

inductive Step where
  | write (group : RegisterGroup) (index : Nat) (value : UInt32)
  | store (offset : Nat) (word : UInt32)
  /-- The script cannot go on. -/
  | refuse (fault : Fault)
  deriving DecidableEq, Repr

abbrev Script := List Step

namespace Session

variable {σ : Type} [Transport σ]

def performStep (s : Session σ) : Step → Except Fault Unit × Session σ
  | .write g index value => s.write g index value
  | .store offset word => s.writeMemory offset word
  | .refuse fault => (.error fault, s)

/-- Performs a script up to the first step that fails. -/
def perform (s : Session σ) : Script → Except Fault Unit × Session σ
  | [] => (.ok (), s)
  | step :: rest =>
    match s.performStep step with
    | (.ok (), s) => s.perform rest
    | (.error e, s) => (.error e, s)

theorem perform_append {s t : Session σ} {first : Script} (h : s.perform first = (.ok (), t))
    (second : Script) : s.perform (first ++ second) = t.perform second := by
  induction first generalizing s with
  | nil => simp only [perform, Prod.mk.injEq, true_and] at h; simp [h]
  | cons step rest ih =>
    simp only [List.cons_append, perform] at h ⊢
    split at h
    · exact ih h
    · simp at h

theorem perform_append_of_error {s t : Session σ} {first : Script} {e : Fault}
    (h : s.perform first = (.error e, t)) (second : Script) :
    s.perform (first ++ second) = (.error e, t) := by
  induction first generalizing s with
  | nil => simp [perform] at h
  | cons step rest ih =>
    simp only [List.cons_append, perform] at h ⊢
    split at h
    · exact ih h
    · exact h

end Session

end PacketOffload
