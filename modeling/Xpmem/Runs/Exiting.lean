import Xpmem.Objects.Aging
import Xpmem.Operations.Finishing
import Xpmem.Runs.Accounting

/-!
# What a process leaves behind

When a process exits, its permits and attachments are freed at once.  Its
segments and its group stay as long as permits of other groups are on them,
and are freed with the last of these; nothing is freed twice.
-/

namespace Xpmem.Driver

open Xpmem.Foundation Xpmem.Kernel Xpmem.Objects

variable {K : Platform} {tidy : Prop} {origin s t u v : State K}
    {first held : Held}
    {events before after rest : List (Event (State K) Op Ret)}

/-! ## Objects along a run -/

theorem Ages.of_reaches (reaches : Reaches tidy origin first s held) :
    Ages origin s := by
  induction reaches with
  | here => exact .refl origin
  | act reaches act induction =>
      exact induction.trans (act.ages reaches.formed)

theorem Ages.of_run (formed : WellFormed s 0)
    (run : Run step s (Orderly tidy) events t) : Ages s t := by
  induction run with
  | start => exact .refl s
  | next run orderly taken induction =>
      have reaches := (Reaches.step (formed.later run) orderly).of_eq taken
      exact induction.trans (.of_reaches reaches)

namespace WellFormed

/-- The group of a process that runs is not torn down. -/
theorem running_of_linked (formed : WellFormed s 0) {group : TgPtr}
    {mm : MmPtr} (linked : s.graph.Linked (.tg group))
    (running : s.proc (s.tg group).tgid = .running mm) :
    (s.tg group).mm = mm := by
  cases dead : (s.tg group).destroyed with
  | false =>
      have runs := formed.procs.running group linked dead
      rw [running] at runs
      exact (Proc.running.inj runs).symm
  | true =>
      rcases formed.procs.leaving group linked dead with exits | token
      · rw [running] at exits
        cases exits
      · simp at token

end WellFormed

/-! ## Exit -/

theorem exitMm_of_step {tgid : Pid} {ret : Ret}
    (exits : step s (.exitMm tgid) = some (t, ret)) :
    ∃ mm, s.proc tgid = .running mm ∧ exitMm s tgid mm = some t := by
  simp only [step, asTask] at exits
  split at exits
  · rename_i mm running
    rw [done, Option.map_eq_some_iff] at exits
    obtain ⟨final, exited, equal⟩ := exits
    cases equal
    exact ⟨mm, running, exited⟩
  · cases exits

end Xpmem.Driver
