import ApiBindings.Proofs.FileTree.Nodes
/-!
# Following paths

A path is followed through directories.  As long as these stay, it leads to the
same place; and that place has room.  A path that never steps up leads to the
place that its steps spell.
-/

namespace ApiBindings
namespace FileTree

variable {root before after : FileTree} {here steps above : List Text} {step : Text}
  {place : Place} {path : Path}

/-- A path that steps up leads somewhere already. -/
def Settles (root : FileTree) (path : Path) : Prop :=
  (".." : Text) ∈ path.steps → ∃ place, root.locatePath path = .ok place

/-- Every directory of one tree is a directory of another one. -/
def DirectoriesIn (before after : FileTree) : Prop :=
  ∀ place, before.node? place = some .directory → after.node? place = some .directory

theorem DirectoriesIn.refl (root : FileTree) : root.DirectoriesIn root := fun _ h => h

theorem DirectoriesIn.trans {mid : FileTree} (hfirst : before.DirectoriesIn mid)
    (hsecond : mid.DirectoriesIn after) : before.DirectoriesIn after :=
  fun place h => hsecond place (hfirst place h)

theorem follow_cons_ok :
    root.follow here (step :: steps) = .ok above ↔
      root.node? here.reverse = some .directory ∧
        if step = ".." then root.follow here.tail steps = .ok above
        else step.byteCount ≤ nameLimit ∧ root.follow (step :: here) steps = .ok above := by
  rw [follow, node?_eq_directory_iff]
  cases hhere : root.get? here.reverse with
  | none => simp
  | some tree =>
      cases tree with
      | file text => simp
      | directory entries =>
          by_cases hup : step = ".."
          · simp [hup]
          · by_cases hlong : nameLimit < step.byteCount
            · have hnot : ¬ step.byteCount ≤ nameLimit := Nat.not_le.mpr hlong
              simp [hup, hlong, hnot]
            · simp [hup, hlong, Nat.not_lt.mp hlong]

theorem HasRoom.node?_of_append (more : Place) (hroom : root.HasRoom (place ++ more))
    (hmore : more ≠ []) : root.node? place = some .directory := by
  have habove : root.node? (place ++ more.dropLast) = some .directory := by
    rw [← List.dropLast_append_of_ne_nil hmore]
    exact hroom (by simp [hmore])
  by_cases hone : more.dropLast = []
  · simpa [hone] using habove
  · exact node?_eq_directory_of_append more.dropLast hone (by simp [habove])

/-! ## Where a path leads -/

theorem DirectoriesIn.follow (hdirectories : before.DirectoriesIn after)
    (hfollow : before.follow here steps = .ok above) : after.follow here steps = .ok above := by
  induction steps generalizing here with
  | nil => simpa [FileTree.follow] using hfollow
  | cons step rest ih =>
      rw [follow_cons_ok] at hfollow ⊢
      obtain ⟨hhere, hrest⟩ := hfollow
      refine ⟨hdirectories _ hhere, ?_⟩
      split at hrest
      next hup => exact (if_pos hup).mpr (ih hrest)
      next hname => exact (if_neg hname).mpr ⟨hrest.1, ih hrest.2⟩

theorem exists_of_follow_append {more : List Text}
    (hfollow : root.follow here (steps ++ more) = .ok above) :
    ∃ mid, root.follow here steps = .ok mid ∧ root.follow mid more = .ok above := by
  induction steps generalizing here with
  | nil => exact ⟨here, rfl, hfollow⟩
  | cons step rest ih =>
      rw [List.cons_append, follow_cons_ok] at hfollow
      obtain ⟨hhere, hrest⟩ := hfollow
      split at hrest
      next hup =>
        obtain ⟨mid, hsteps, hmore⟩ := ih hrest
        refine ⟨mid, ?_, hmore⟩
        rw [follow_cons_ok]
        exact ⟨hhere, (if_pos hup).mpr hsteps⟩
      next hname =>
        obtain ⟨mid, hsteps, hmore⟩ := ih hrest.2
        refine ⟨mid, ?_, hmore⟩
        rw [follow_cons_ok]
        exact ⟨hhere, (if_neg hname).mpr ⟨hrest.1, hsteps⟩⟩

theorem hasRoom_of_follow (hroom : root.HasRoom here.reverse)
    (hfollow : root.follow here steps = .ok above) : root.HasRoom above.reverse := by
  induction steps generalizing here with
  | nil =>
      obtain rfl : here = above := by simpa [FileTree.follow] using hfollow
      exact hroom
  | cons step rest ih =>
      rw [follow_cons_ok] at hfollow
      obtain ⟨hhere, hrest⟩ := hfollow
      split at hrest
      next =>
        -- Whatever is around a directory is a directory.
        cases here with
        | nil => exact ih hroom hrest
        | cons name here =>
            have habove : root.node? here.reverse = some .directory := by
              refine node?_eq_directory_of_append [name] (by simp) ?_
              rw [← List.reverse_cons, hhere]
              simp
            exact ih (hasRoom_of_node? (by simp [habove])) hrest
      next => exact ih (by simpa [HasRoom] using hhere) hrest.2

theorem above_eq_of_follow (hups : (".." : Text) ∉ steps)
    (hfollow : root.follow here steps = .ok above) : above = steps.reverse ++ here := by
  induction steps generalizing here with
  | nil => simpa [FileTree.follow, eq_comm] using hfollow
  | cons step rest ih =>
      obtain ⟨hstep, hrest⟩ := not_or.mp (mt List.mem_cons.mpr hups)
      rw [follow_cons_ok, if_neg (Ne.symm hstep)] at hfollow
      simpa using ih hrest hfollow.2.2

theorem follow_of_hasRoom (hups : (".." : Text) ∉ steps)
    (hfollow : after.follow here steps = .ok above) (hroom : before.HasRoom above.reverse) :
    before.follow here steps = .ok above := by
  induction steps generalizing here with
  | nil => simpa [FileTree.follow] using hfollow
  | cons step rest ih =>
      obtain ⟨hstep, hrest⟩ := not_or.mp (mt List.mem_cons.mpr hups)
      have hspelled := above_eq_of_follow hups hfollow
      rw [follow_cons_ok, if_neg (Ne.symm hstep)] at hfollow
      -- All that is above the place in the end is a directory.
      have hhere : before.node? here.reverse = some .directory := by
        refine HasRoom.node?_of_append (step :: rest) ?_ (by simp)
        simpa [hspelled] using hroom
      rw [follow_cons_ok, if_neg (Ne.symm hstep)]
      exact ⟨hhere, hfollow.2.1, ih hrest hfollow.2.2⟩

/-! ## Paths as they are written -/

theorem locatePath_eq_ok :
    root.locatePath path = .ok place ↔
      path.fault? 0 = none ∧ root.follow [] path.steps = .ok place.reverse := by
  unfold locatePath locate
  cases hfault : path.fault? 0 with
  | some fault => simp
  | none =>
      cases hfollow : root.follow [] path.steps with
      | error fault => simp [bind, Except.bind]
      | ok above => simp [bind, Except.bind, pure, Except.pure, List.reverse_eq_iff]

theorem DirectoriesIn.locatePath (hdirectories : before.DirectoriesIn after)
    (hlocate : before.locatePath path = .ok place) : after.locatePath path = .ok place := by
  rw [locatePath_eq_ok] at hlocate ⊢
  exact ⟨hlocate.1, hdirectories.follow hlocate.2⟩

theorem hasRoom_of_locatePath (hlocate : root.locatePath path = .ok place) : root.HasRoom place := by
  rw [locatePath_eq_ok] at hlocate
  have hroom := hasRoom_of_follow (by simp [HasRoom]) hlocate.2
  simpa using hroom

/-- A path that never steps up leads to the same place in every tree that has
room there. -/
theorem locatePath_of_hasRoom (hups : (".." : Text) ∉ path.steps)
    (hlocate : after.locatePath path = .ok place) (hroom : before.HasRoom place) :
    before.locatePath path = .ok place := by
  rw [locatePath_eq_ok] at hlocate ⊢
  exact ⟨hlocate.1, follow_of_hasRoom hups hlocate.2 (by rwa [List.reverse_reverse])⟩

end FileTree
end ApiBindings
