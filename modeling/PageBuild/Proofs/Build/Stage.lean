import PageBuild.Build.Staging
import PageBuild.Proofs.Files.Copy
import PageBuild.Text.Basic

/-!
# Staged trees

A template is staged into the directory of a build, of which nothing is left. Where template and
directory lie apart, the directory then holds what the template holds, and the template stays as it
was (`Staging.stage_copies`). Where the directory of the build is the template itself or lies above
it, the template is removed.
-/
namespace PageBuild

open PageBuild.Action (Moves)

namespace Files.Parted

variable {here : Location} {source target : Path} {files : Files}

/-- A slash after the target changes nothing. -/
theorem slashed (parted : Parted here source target files) :
    Parted here source (target.join ⟨""⟩) files := by
  have same : (target.join ⟨""⟩).place here = target.place here := by
    rw [Path.place_join rfl]
    rfl
  have leads : ∀ place, (target.join ⟨""⟩).Leads here place → target.Leads here place := by
    intro place leads
    rcases leads.of_join_single (by decide) rfl with leads | rfl
    · exact leads
    · exact same ▸ target.leads_place here
  constructor
  · rw [same]
    exact parted.source_apart
  · rw [same]
    exact parted.target_apart
  · exact fun place through => parted.passes place (leads place through)
  · rw [same]
    exact fun place through => parted.enters place (leads place through)

end Files.Parted

namespace Staging

variable {here : Location} {staging : Staging} {files later : Files} {template : Path}

/-- To stage a template is to change what is at or below the directory of the build, and to make
directories on the way to it. -/
theorem performs_stage (template : Path) :
    Moves (Files.Performs here (Files.Edit.IsWithin here staging.buildDir))
      (staging.stage template) := by
  have cleared : Moves (Files.Performs here (Files.Edit.IsWithin here staging.buildDir))
      (FileM.change (·.removeTree staging.buildDir)) :=
    FileM.moves_change fun files later removed => Files.performs_of_edits fun sound =>
      (Files.applies_removeTree sound removed).edits List.prefix_rfl
  have copied : Moves (Files.Performs here (Files.Edit.IsWithin here staging.buildDir))
      (FileM.copyTree template staging.buildDir) :=
    FileM.performs_copyTree (fun place leads => .inl leads)
      fun place below => ⟨.inr below, fun content => below⟩
  have staged : Moves (Files.Performs here (Files.Edit.IsWithin here staging.buildDir)) (do
      if (← get).pathExists staging.buildDir then FileM.change (·.removeTree staging.buildDir)
      FileM.copyTree template staging.buildDir) := by
    refine Action.moves_get_bind fun files => ?_
    split
    · exact cleared.bind (fun _ => copied) files
    · exact copied files
  refine Action.moves_get_bind fun files => ?_
  split
  · exact refl_of (Files.Performs here _) files
  · exact staged files

/-- To stage a template is to clear the directory of the build and to copy the template into it. -/
theorem of_run_stage_ok {count : Nat} (ran : (staging.stage template).run files = (.ok count, later)) :
    files.stat template = .ok .directory ∧ ∃ cleared,
      (files.removeTree staging.buildDir = .ok cleared ∨
        files.pathExists staging.buildDir = false ∧ cleared = files) ∧
      (FileM.copyTree template staging.buildDir).run cleared = (.ok count, later) := by
  rw [stage, Action.run_get_bind] at ran
  split at ran
  · cases ran
  · rename_i stands
    refine ⟨Files.isDirectory_iff.mp (by simpa using stands), ?_⟩
    dsimp only at ran
    rw [Action.run_get_bind] at ran
    split at ran
    · obtain ⟨done, cleared, removed, copied⟩ := Action.of_run_bind_ok ran
      exact ⟨cleared, .inl (FileM.run_change_eq_ok.mp removed), copied⟩
    · rename_i absent
      exact ⟨files, .inr ⟨by simpa using absent, rfl⟩, ran⟩

/-- To copy a tree is to copy what stands at its path. -/
theorem of_run_copyTree_ok {source target : Path} {count : Nat}
    (ran : (FileM.copyTree source target).run files = (.ok count, later)) :
    (FileM.copyNode (maxPath + 1) source (target.join ⟨""⟩)).run files = (.ok count, later) := by
  rw [FileM.copyTree, Action.run_get_bind] at ran
  split at ran
  · cases ran
  · exact ran

/-- A tree is copied only from where something stands. -/
theorem exists_stat_of_copyTree {source target : Path} {count : Nat}
    (ran : (FileM.copyTree source target).run files = (.ok count, later)) :
    ∃ entry, files.stat source = .ok entry := by
  rw [FileM.copyTree, Action.run_get_bind] at ran
  split at ran
  · cases ran
  · rename_i entry found
    exact ⟨entry, found⟩

/-- A directory that is still found after another one was removed is still a directory. -/
theorem stat_of_removeTree {path other : Path} {entry : Entry} (sound : files.IsSound here)
    (removed : files.removeTree other = .ok later) (stood : files.stat path = .ok .directory)
    (stands : later.stat path = .ok entry) : entry = .directory := by
  obtain ⟨location, slashed, located, found⟩ := Files.stat_eq_ok stands
  obtain ⟨old, cut, old_located, directory⟩ := Files.stat_eq_directory.mp stood
  have later_sound := (Files.applies_removeTree sound removed).isSound sound
  rw [later_sound.locate_eq located] at found
  rw [sound.locate_eq old_located] at directory
  by_cases root : path.place here = []
  · rw [root, FileTree.find?_nil] at found
    exact (Option.some.inj found).symm
  · rw [Files.find?_of_removeTree sound.toAt removed root] at found
    split at found
    · cases found
    · rw [directory] at found
      exact (Option.some.inj found).symm

/-- Where a directory was copied to a directory stands. -/
theorem isDirectory_of_copyTree {source target : Path} {count : Nat} (sound : files.IsSound here)
    (filled : target.text ≠ "") (stands : files.stat source = .ok .directory)
    (ran : (FileM.copyTree source target).run files = (.ok count, later)) :
    later.isDirectory target = true := by
  have ran := of_run_copyTree_ok ran
  rw [FileM.copyNode] at ran
  obtain ⟨entry, first, looked, ran⟩ := Action.of_run_bind_ok ran
  obtain ⟨viewed, rfl⟩ := FileM.run_look_eq_ok.mp looked
  rw [stands] at viewed
  cases viewed
  dsimp only at ran
  obtain ⟨done, made, ensured, ran⟩ := Action.of_run_bind_ok ran
  rw [Action.run_get_bind] at ran
  have slashed_filled : (target.join ⟨""⟩).text ≠ "" := by
    obtain ⟨rest, text⟩ : ∃ rest, (target.join ⟨""⟩).text = target.text ++ rest :=
      Files.exists_text_join rfl filled
    simp [text, filled]
  have at_target := FileM.isDirectory_of_makeDirectories slashed_filled ensured
  -- What is copied into the directory changes no directory.
  have keeps : Moves (Files.Keeps here fun _ entry => entry.isFile = true)
      (FileM.ensureDirectory (target.join ⟨""⟩)) := FileM.keeps_ensureDirectory _
  have made_at : made.At here := by
    have kept := (keeps first sound.toAt).1
    rwa [ensured] at kept
  have copies : Moves (Files.Keeps here fun _ entry => entry.isFile = true)
      ((made.children source).foldlM
        (fun copied name => do
          return copied + (← FileM.copyNode maxPath (source.join ⟨name⟩)
            ((target.join ⟨""⟩).join ⟨name⟩))) 0) :=
    Action.moves_foldlM (fun name _ copied =>
      (FileM.keeps_copyNode _ _ _ fun _ _ _ => rfl).bind fun _ => Action.moves_pure _) 0
  obtain ⟨later_at, spared⟩ := copies made made_at
  rw [ran] at later_at spared
  have at_later := Files.isDirectory_of_directories
    (fun place => spared place .directory (by simp [Entry.isFile]))
    (later_at.here_eq.trans made_at.here_eq.symm) at_target
  obtain ⟨location, slashed, located, directory⟩ :=
    Files.stat_eq_directory.mp (Files.isDirectory_iff.mp at_later)
  obtain ⟨cut, located⟩ := Files.locate_of_slashed filled located
  exact Files.isDirectory_iff.mpr (Files.stat_eq_directory.mpr ⟨location, cut, located, directory⟩)

/-- A template that was staged has made a directory of the build. -/
theorem isDirectory_of_stage {count : Nat} (sound : files.IsSound here)
    (filled : staging.buildDir.text ≠ "")
    (ran : (staging.stage template).run files = (.ok count, later)) :
    later.isDirectory staging.buildDir = true := by
  obtain ⟨stands, cleared, removed, copied⟩ := of_run_stage_ok ran
  have cleared_sound : cleared.IsSound here := by
    rcases removed with removed | ⟨-, rfl⟩
    · exact (Files.applies_removeTree sound removed).isSound sound
    · exact sound
  refine isDirectory_of_copyTree cleared_sound filled ?_ copied
  rcases removed with removed | ⟨-, rfl⟩
  · obtain ⟨entry, found⟩ := exists_stat_of_copyTree copied
    rw [found, stat_of_removeTree sound removed stands found]
  · exact stands

/-- A template that lies apart from the directory of a build stays as it was when it is staged. If it
is staged, the directory then holds the directories and files of the template with their contents,
and nothing else, and the files are counted. -/
theorem stage_copies (template : Path) (id : String) (root : Option Path) (here : Location)
    (files : Files) (plain : Text.isPlainName id = true) (sound : files.IsSound here)
    (parted : Files.Parted here template (ofBuild template id root).buildDir files)
    (seen : files.tree.find? ((ofBuild template id root).buildDir.place here) ≠ none →
      files.pathExists (ofBuild template id root).buildDir = true) :
    (∀ names,
      (((ofBuild template id root).stage template).run files).2.tree.find?
          (template.place here ++ names) =
        files.tree.find? (template.place here ++ names)) ∧
    ∀ count later, ((ofBuild template id root).stage template).run files = (.ok count, later) →
      (∀ names,
        later.tree.find? ((ofBuild template id root).buildDir.place here ++ names) =
          files.tree.find? (template.place here ++ names)) ∧
      count = (files.tree.below (template.place here)).countP fun item => item.2.isFile := by
  have filled : (ofBuild template id root).buildDir.text ≠ "" :=
    Path.text_join_ne (Path.isName_of_isPlainName plain).2.1
  generalize ofBuild template id root = staging at parted seen filled
  constructor
  · intro names
    exact parted.find?_source (performs_stage template files sound).2 (List.prefix_append _ _)
  · intro count later ran
    obtain ⟨found, cleared, removal, copied⟩ := of_run_stage_ok ran
    obtain ⟨location, slashed, located, stands⟩ := Files.stat_eq_directory.mp found
    rw [sound.locate_eq located] at stands
    have edits : Files.Edits (Files.Edit.IsWithin here staging.buildDir) files cleared := by
      rcases removal with removed | ⟨-, rfl⟩
      · exact (Files.applies_removeTree sound removed).edits List.prefix_rfl
      · exact refl_of (Files.Edits _) cleared
    have source_eq : ∀ place, template.place here <+: place →
        cleared.tree.find? place = files.tree.find? place :=
      fun place within => parted.find?_source edits within
    have fresh : ∀ names, cleared.tree.find? (staging.buildDir.place here ++ names) = none := by
      intro names
      rcases removal with removed | ⟨absent, rfl⟩
      · rw [Files.find?_of_removeTree sound.toAt removed, if_pos (List.prefix_append _ _)]
        intro top
        exact parted.target_apart ((List.append_eq_nil_iff.mp top).1 ▸ List.nil_prefix)
      · have none : cleared.tree.find? (staging.buildDir.place here) = none := by
          by_contra stands
          rw [seen stands] at absent
          cases absent
        by_contra found
        obtain ⟨entry, found⟩ := Option.ne_none_iff_exists'.mp found
        by_cases top : names = []
        · rw [top, List.append_nil, none] at found
          cases found
        · rw [sound.closed.directory_of_below top found] at none
          cases none
    have same : (staging.buildDir.join ⟨""⟩).place here = staging.buildDir.place here := by
      rw [Path.place_join rfl]
      rfl
    have text : (staging.buildDir.join ⟨""⟩).text ≠ "" := by
      have relative : (Path.mk "").isAbsolute = false := rfl
      obtain ⟨rest, text⟩ := Files.exists_text_join relative filled
      simp [text, filled]
    obtain ⟨-, target_eq, counted⟩ := FileM.copied_of_copyNode (edits.isSound sound)
      (parted.of_source source_eq).slashed text (by rwa [same]) (of_run_copyTree_ok copied)
    rw [same] at target_eq
    refine ⟨fun names => ?_, ?_⟩
    · rw [target_eq, source_eq _ (List.prefix_append _ _)]
    · have has : files.tree.HasFiles (template.place here) count :=
        counted.congr fun names => (source_eq _ (List.prefix_append _ _)).symm
      exact has.unique (FileTree.hasFiles_below stands)

section Sample

/-- A machine with a template in the current directory, the staging root next to it, and a file that
an earlier build left there. -/
def sampleFiles : Files :=
  ((((Files.mk .empty ["w"]).plant [] "w/t/a.txt" "one".toUTF8).plant [] "w/t/d/b.txt"
    "two".toUTF8).plant [] "w/t/e/" .empty).plant [] "w/.temp/b/old.txt" "old".toUTF8

/-- The template replaces what an earlier build left. -/
theorem stage_copies_afresh :
    Text.isPlainName "b" = true ∧ sampleFiles.IsSound ["w"] ∧
      (((ofBuild ⟨"t"⟩ "b" none).stage ⟨"t"⟩).run sampleFiles).1 = .ok 2 ∧
      ∀ names,
        (((ofBuild ⟨"t"⟩ "b" none).stage ⟨"t"⟩).run sampleFiles).2.tree.find?
            (["w", ".temp", "b"] ++ names) = sampleFiles.tree.find? (["w", "t"] ++ names) := by
  have plain : Text.isPlainName "b" = true := by decide
  have sound : sampleFiles.IsSound ["w"] :=
    ⟨⟨rfl, FileTree.isNamed_of_entries (by decide +kernel), by decide⟩,
      FileTree.isClosed_of_entries (by decide +kernel)⟩
  have staged : (((ofBuild ⟨"t"⟩ "b" none).stage ⟨"t"⟩).run sampleFiles).1 = .ok 2 := by
    decide +kernel
  refine ⟨plain, sound, staged, ?_⟩
  have copies := stage_copies ⟨"t"⟩ "b" none ["w"] sampleFiles plain sound
    (Files.parted_of_straight (by decide) (by decide) (by decide)) fun _ => by decide +kernel
  have target : (ofBuild ⟨"t"⟩ "b" none).buildDir.place ["w"] = ["w", ".temp", "b"] := by
    decide +kernel
  have source : (Path.mk "t").place ["w"] = ["w", "t"] := by decide +kernel
  rw [target, source] at copies
  generalize ((ofBuild ⟨"t"⟩ "b" none).stage ⟨"t"⟩).run sampleFiles = ran at copies staged ⊢
  obtain ⟨result, later⟩ := ran
  exact (copies.2 2 later (by rw [← staged])).1

/-- A machine with a template in a directory that is also the staging root. -/
def sharedFiles : Files := (Files.mk .empty ["w"]).plant [] "w/s/t/a.txt" "one".toUTF8

/-- The directory of a build that is named like its template, in the directory of the template, is the
template: it is removed, and then there is nothing to copy. -/
theorem stage_removes_template :
    Text.isPlainName "t" = true ∧ sharedFiles.isFile ⟨"s/t/a.txt"⟩ = true ∧
      (((ofBuild ⟨"s/t"⟩ "t" (some ⟨"s"⟩)).stage ⟨"s/t"⟩).run sharedFiles).1 =
        .error (.walking "s/t" .noEntry) ∧
      (((ofBuild ⟨"s/t"⟩ "t" (some ⟨"s"⟩)).stage ⟨"s/t"⟩).run sharedFiles).2.pathExists ⟨"s/t"⟩ =
        false := by
  decide +kernel

end Sample

end Staging

end PageBuild
