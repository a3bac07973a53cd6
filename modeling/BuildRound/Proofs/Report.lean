import BuildRound.Board
import Mathlib.Data.List.Nodup

/-!
# What a report says

A report on running actions says how many there are, names those that began first, the oldest in front, and counts the
others. In which order the board holds its actions does not matter unless two of them began at the same time.
-/

namespace BuildRound

/-! ## How long an action runs -/

def RunningAction.seconds (a : RunningAction) (now : Nanos) : Nat :=
  Nanos.seconds (now - a.started)

namespace RunningAction

variable {a c : RunningAction} {now : Nanos}

theorem seconds_of_le (h : now ≤ a.started) : a.seconds now = 0 := by
  simp [seconds, Nanos.seconds, Nat.sub_eq_zero_of_le h]

theorem seconds_floor (a : RunningAction) (now : Nanos) :
    Nanos.ofSeconds (a.seconds now) ≤ now - a.started ∧ now - a.started < Nanos.ofSeconds (a.seconds now + 1) := by
  have hfloor (d : Nat) : d / 1000000000 * 1000000000 ≤ d ∧ d < (d / 1000000000 + 1) * 1000000000 := by omega
  exact hfloor (now - a.started)

theorem seconds_anti (h : a.started ≤ c.started) : c.seconds now ≤ a.seconds now :=
  Nat.div_le_div_right (Nat.sub_le_sub_left h now)

end RunningAction

namespace Board

/-! ## The oldest actions -/

variable {running running' : List (ActionId × RunningAction)}

/-- The running actions with their ids, the one that started first in front. -/
def byAge (running : List (ActionId × RunningAction)) : List (ActionId × RunningAction) :=
  running.mergeSort (fun a c => a.2.started ≤ c.2.started)

theorem byAge_perm (running : List (ActionId × RunningAction)) : (byAge running).Perm running :=
  List.mergeSort_perm running _

theorem byAge_sorted (running : List (ActionId × RunningAction)) :
    (byAge running).Pairwise (fun a c => a.2.started ≤ c.2.started) := by
  have hsorted : (byAge running).Pairwise (fun a c => decide (a.2.started ≤ c.2.started) = true) := by
    refine List.pairwise_mergeSort (fun a c d hac hcd => ?_) (fun a c => ?_) running
    · exact decide_eq_true (Nat.le_trans (of_decide_eq_true hac) (of_decide_eq_true hcd))
    · simpa using Nat.le_total a.2.started c.2.started
  exact hsorted.imp of_decide_eq_true

theorem oldestFirst_map (running : List (ActionId × RunningAction)) :
    oldestFirst (running.map (·.2)) = (byAge running).map (·.2) :=
  (List.map_mergeSort (f := Prod.snd) (fun _ _ _ _ => rfl)).symm

theorem byAge_congr (hperm : running'.Perm running) (hstarts : (running.map (·.2.started)).Nodup) :
    byAge running' = byAge running := by
  -- Both are in order, so they are equal if no two different actions may stand either way round.
  refine List.Perm.eq_of_pairwise (fun a c ha hc hac hca => ?_) (byAge_sorted running') (byAge_sorted running)
    ((byAge_perm running').trans (hperm.trans (byAge_perm running).symm))
  have ha' : a ∈ running := hperm.mem_iff.mp ((byAge_perm running').mem_iff.mp ha)
  have hc' : c ∈ running := (byAge_perm running).mem_iff.mp hc
  exact List.inj_on_of_nodup_map hstarts ha' hc' (Nat.le_antisymm hac hca)

/-- The oldest actions and the others: none that is left began before one that is listed. -/
theorem splits_byAge (running : List (ActionId × RunningAction)) :
    ((byAge running).take reportLimit ++ (byAge running).drop reportLimit).Perm running ∧
    ((byAge running).take reportLimit).length = min running.length reportLimit ∧
    ((byAge running).drop reportLimit).length = running.length - reportLimit ∧
    ((byAge running).take reportLimit).Pairwise (fun a c => a.2.started ≤ c.2.started) ∧
    ((byAge running).drop reportLimit).Pairwise (fun a c => a.2.started ≤ c.2.started) ∧
    ∀ a ∈ (byAge running).take reportLimit, ∀ c ∈ (byAge running).drop reportLimit, a.2.started ≤ c.2.started := by
  have hlength : (byAge running).length = running.length := (byAge_perm running).length_eq
  refine ⟨?_, ?_, ?_, ?_⟩
  · rw [List.take_append_drop]
    exact byAge_perm running
  · rw [List.length_take, hlength, Nat.min_comm]
  · rw [List.length_drop, hlength]
  · rw [← List.pairwise_append, List.take_append_drop]
    exact byAge_sorted running

/-! ## The text -/

variable {b : Board} {progress : String} {now : Nanos}

def header (progress : String) (n : Nat) : String :=
  progress ++ "Still waiting for " ++ toString n ++ " " ++ (if n = 1 then "action" else "actions") ++ " to complete:"

def footer (left : Nat) : String :=
  if left = 0 then "" else "\n  ... " ++ toString left ++ " more"

theorem render_eq_none_iff : b.render progress now = none ↔ b.running = [] := by
  cases h : b.running <;> simp [render, renderActions, h]

theorem render_of_ne_nil (h : b.running ≠ []) : b.render progress now =
    some (header progress b.running.length ++ String.join (((byAge b.running).take reportLimit).map (line now ·.2)) ++
      footer ((byAge b.running).drop reportLimit).length) := by
  have hlength : (byAge b.running).length = b.running.length := (byAge_perm _).length_eq
  have hempty : (b.running.map (·.2)).isEmpty = false := by simpa using h
  simp only [render, renderActions, hempty, Bool.false_eq_true, if_false, List.length_map, oldestFirst_map,
    ← List.map_take, List.map_map, List.length_drop, hlength, header, footer, Nat.sub_eq_zero_iff_le]
  by_cases hmore : b.running.length > reportLimit
  · simp [hmore, Nat.not_le.mpr hmore, Function.comp_def, String.append_assoc]
  · simp [hmore, Nat.not_lt.mp hmore, Function.comp_def]

/-- A report is given unless nothing runs. It tells the number of running actions and names as many of them as it may,
none of which began later than one that is left out, the one that runs longest in front and the times that they run
never longer than before; it ends with how many are left out, if any are. -/
theorem report_truthful (hids : (b.running.map (·.1)).Nodup) (progress : String) (now : Nanos) :
    (b.render progress now = none ↔ b.running = []) ∧
    (b.running ≠ [] → ∃ listed left : List (ActionId × RunningAction),
      (listed ++ left).Perm b.running ∧ ((listed ++ left).map (·.1)).Nodup ∧
      listed.length = min b.running.length 5 ∧ left.length = b.running.length - 5 ∧
      (∀ a ∈ listed, ∀ c ∈ left, a.2.started ≤ c.2.started) ∧
      listed.Pairwise (fun a c => a.2.started ≤ c.2.started ∧ c.2.seconds now ≤ a.2.seconds now) ∧
      b.render progress now = some (
        progress ++ "Still waiting for " ++ toString b.running.length ++ " " ++
          (if b.running.length = 1 then "action" else "actions") ++ " to complete:" ++
        String.join (listed.map fun a => "\n  " ++ a.2.description ++ ", " ++ toString (a.2.seconds now) ++ " s") ++
        (if b.running.length > 5 then "\n  ... " ++ toString left.length ++ " more" else ""))) ∧
    (∀ a : RunningAction, (now ≤ a.started → a.seconds now = 0) ∧ Nanos.ofSeconds (a.seconds now) ≤ now - a.started ∧
      now - a.started < Nanos.ofSeconds (a.seconds now + 1)) ∧
    ((b.running.map (·.2.started)).Nodup → ∀ b' : Board, b'.running.Perm b.running →
      b'.render progress now = b.render progress now) := by
  refine ⟨render_eq_none_iff, fun hne => ?_, fun a => ⟨RunningAction.seconds_of_le, a.seconds_floor now⟩,
    fun hstarts b' hperm => ?_⟩
  · obtain ⟨hsplit, hlisted, hleft, hsorted⟩ := splits_byAge b.running
    refine ⟨(byAge b.running).take reportLimit, (byAge b.running).drop reportLimit, hsplit, ?_, hlisted, hleft,
      hsorted.2.2, hsorted.1.imp (fun h => ⟨h, RunningAction.seconds_anti h⟩), ?_⟩
    · exact (hsplit.map _).nodup_iff.mpr hids
    · rw [render_of_ne_nil hne, header, footer, hleft, reportLimit]
      by_cases hmore : b.running.length > 5
      · rw [if_pos hmore, if_neg (Nat.sub_ne_zero_of_lt hmore)]
        rfl
      · rw [if_neg hmore, if_pos (Nat.sub_eq_zero_of_le (Nat.not_lt.mp hmore))]
        rfl
  · have hnil : b'.running = [] ↔ b.running = [] := by
      rw [← List.length_eq_zero_iff, hperm.length_eq, List.length_eq_zero_iff]
    by_cases hne : b.running = []
    · rw [render_eq_none_iff.mpr hne, render_eq_none_iff.mpr (hnil.mpr hne)]
    · rw [render_of_ne_nil hne, render_of_ne_nil (mt hnil.mp hne), byAge_congr hperm hstarts, hperm.length_eq]

/-- Six actions run, one of which is to begin only in a second. -/
def six : Board where
  running := [(⟨"f"⟩, ⟨"Link f", 9000000000⟩), (⟨"b"⟩, ⟨"Compile b.o", 2500000000⟩),
    (⟨"c"⟩, ⟨"Compile c.o", 3000000000⟩), (⟨"a"⟩, ⟨"Compile a.o", 1000000000⟩),
    (⟨"e"⟩, ⟨"Compile e.o", 8000000000⟩), (⟨"d"⟩, ⟨"Compile d.o", 5000000001⟩)]

/-- One of the six is left out, and the report is the same if the board holds them the other way round. -/
theorem report_truthful_six : (six.running.map (·.1)).Nodup ∧ (six.running.map (·.2.started)).Nodup ∧
    (∃ listed left : List (ActionId × RunningAction),
      (listed ++ left).Perm six.running ∧ listed.length = 5 ∧ left.length = 1 ∧
      (∀ a ∈ listed, ∀ c ∈ left, a.2.started ≤ c.2.started) ∧
      six.render "[1/7] " 8000000000 = some ("[1/7] Still waiting for 6 actions to complete:" ++
        String.join (listed.map fun a =>
          "\n  " ++ a.2.description ++ ", " ++ toString (a.2.seconds 8000000000) ++ " s") ++ "\n  ... 1 more")) ∧
    Board.render { six with running := six.running.reverse } "[1/7] " 8000000000 = six.render "[1/7] " 8000000000 := by
  have hids : (six.running.map (·.1)).Nodup := by decide
  have hstarts : (six.running.map (·.2.started)).Nodup := by decide
  obtain ⟨-, hreport, -, hsame⟩ := report_truthful hids "[1/7] " 8000000000
  obtain ⟨listed, left, hperm, -, hlisted, hleft, hage, -, htext⟩ := hreport (by decide)
  refine ⟨hids, hstarts, ⟨listed, left, hperm, hlisted, hleft, hage, ?_⟩, hsame hstarts _ (List.reverse_perm _)⟩
  rw [htext, hleft]
  rfl

end Board

end BuildRound
