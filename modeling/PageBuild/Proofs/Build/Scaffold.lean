import Mathlib.Data.Set.List
import Mathlib.Data.String.Basic
import PageBuild.Build.Scaffold
import PageBuild.Proofs.Build.Host
import PageBuild.Proofs.Files.Copy
import PageBuild.Proofs.Files.Extension

/-!
# Filled trees

The scaffold files of a tree are filled in the order of a walk, whatever filling does. The output of a
template has its path without the extension, so it comes before the template: where it is the path of
another template, that one was filled before. So each output is what filling makes of the template as
it was in the beginning, and nothing but templates and outputs changes.
-/
namespace PageBuild

open PageBuild.Action (Moves)

/-! ## Order -/

/-- A name comes before the name with more after it. -/
theorem compare_append {more : String} (some : more ≠ "") (name : String) :
    compare name (name ++ more) = .lt := by
  have longer : ∀ chars : List Char, chars < chars ++ more.toList := by
    intro chars
    induction chars with
    | nil =>
      cases chars : more.toList with
      | nil => exact absurd (String.toList_eq_nil_iff.mp chars) some
      | cons c rest => exact List.nil_lt_cons c rest
    | cons c chars ih =>
      rw [List.cons_append, List.cons_lt_cons_iff]
      exact .inr ⟨rfl, ih⟩
  rw [compare_lt_iff_lt, String.lt_iff_toList_lt, String.toList_append]
  exact longer name.toList

/-- Locations that differ in their last names come in the order of these. -/
theorem Location.before_concat {front : Location} {first second : String}
    (before : compare first second = .lt) :
    Location.before (front ++ [first]) (front ++ [second]) := by
  rw [Location.before]
  induction front with
  | nil => simp [List.compare_cons_cons, before]
  | cons name front ih => simpa [List.compare_cons_cons] using ih

/-- Of two locations only one comes before the other. -/
theorem Location.not_before {first second : Location} (before : Location.before first second) :
    ¬Location.before second first := by
  have after : compare second first = .gt := Std.OrientedCmp.gt_of_lt before
  simp [Location.before, after]

namespace Scaffold

/-! ## Templates of a tree -/

/-- A template below a directory: the names on the way to it, and its own without the extension. -/
structure Slot where
  front : List String
  stem : String

namespace Slot

/-- The names on the way down to a template. -/
def source (slot : Slot) : List String := slot.front ++ [slot.stem ++ "." ++ templateExtension]

/-- The names on the way down to the output of a template. -/
def output (slot : Slot) : List String := slot.front ++ [slot.stem]

variable {slot other : Slot}

/-- Different templates have different paths. -/
theorem source_inj : slot.source = other.source ↔ slot = other := by
  refine ⟨fun same => ?_, fun same => same ▸ rfl⟩
  obtain ⟨front, last⟩ := List.append_inj' same rfl
  obtain ⟨front', stem'⟩ := other
  obtain ⟨front, stem⟩ := slot
  have stems := List.singleton_inj.mp last
  rw [String.append_assoc, String.append_assoc, String.append_left_inj] at stems
  simp_all

/-- Different templates have different outputs. -/
theorem output_inj : slot.output = other.output ↔ slot = other := by
  refine ⟨fun same => ?_, fun same => same ▸ rfl⟩
  obtain ⟨front, last⟩ := List.append_inj' same rfl
  obtain ⟨front', stem'⟩ := other
  obtain ⟨front, stem⟩ := slot
  simp_all

/-- The output of a template comes before it. -/
theorem output_before (slot : Slot) (base : Location) :
    Location.before (base ++ slot.output) (base ++ slot.source) := by
  rw [output, source, ← List.append_assoc, ← List.append_assoc, String.append_assoc]
  exact Location.before_concat (compare_append (by decide) slot.stem)

/-- A template is not its own output. -/
theorem output_ne_source (slot : Slot) : slot.output ≠ slot.source := by
  intro same
  have before := slot.output_before []
  rw [same] at before
  exact FileTree.not_before_self _ before

/-- A template that comes before another one shares neither path nor output with it, and its output is
not the other one. -/
theorem apart_of_before {base : Location}
    (before : Location.before (base ++ other.source) (base ++ slot.source)) :
    other.source ≠ slot.source ∧ other.output ≠ slot.source ∧ other.output ≠ slot.output := by
  have different : other.source ≠ slot.source := by
    intro same
    rw [same] at before
    exact FileTree.not_before_self _ before
  refine ⟨different, fun same => ?_, fun same => different (source_inj.mpr (output_inj.mp same))⟩
  have earlier := other.output_before base
  rw [same] at earlier
  exact Location.not_before before earlier

end Slot

/-- Whether these are the templates of a tree below a directory, in order. -/
structure Lists (tree : FileTree) (base : Location) (slots : List Slot) : Prop where
  ordered : slots.Pairwise fun a b => Location.before (base ++ a.source) (base ++ b.source)
  mem_iff : ∀ slot, slot ∈ slots ↔
    slot.stem ≠ "" ∧ ∃ content, tree.find? (base ++ slot.source) = some (.file content)

/-- A path to a name is one to a template if something stands before the extension. -/
theorem isTemplate_join {name : String} (isName : Path.IsName name) (path : Path) :
    isTemplate (path.join ⟨name⟩) = true ↔
      ∃ stem, stem ≠ "" ∧ name = stem ++ "." ++ templateExtension := by
  rw [isTemplate, Path.extension?_join isName, decide_eq_true_eq]
  constructor
  · exact Path.of_splitExtension
  · rintro ⟨stem, filled, rfl⟩
    rw [Path.splitExtension_eq filled (by decide)]

variable {σ : Type} {here : Location} {files : Files} {root : Path}

/-- The templates below a directory are found in order. -/
theorem exists_lists (sound : files.IsSound here) (stands : files.stat root = .ok .directory) :
    ∃ slots, Lists files.tree (root.place here) slots ∧
      ∀ host : Host σ, host.files = files →
        (templates root).run host =
          (.ok (slots.map fun slot => root.descend slot.source), host) := by
  obtain ⟨base, slashed, located, stands⟩ := Files.stat_eq_directory.mp stands
  have listed := Files.listFiles_eq located stands
  rw [sound.locate_eq located] at listed
  let found := (((files.tree.below (root.place here)).filter fun item => item.2.isFile).filter
    fun item => isTemplate (root.descend item.1)).map (·.1)
  -- What is found are the files whose last name has the extension.
  have mem_found : ∀ names, names ∈ found ↔
      (∃ content, files.tree.find? (root.place here ++ names) = some (.file content)) ∧
        ∃ slot : Slot, slot.stem ≠ "" ∧ slot.source = names := by
    intro names
    simp only [found, List.mem_map, List.mem_filter, Prod.exists, exists_and_right,
      exists_eq_right, FileTree.mem_below]
    constructor
    · rintro ⟨⟨entry, ⟨filled, stands⟩, isFile⟩, template⟩
      rcases List.eq_nil_or_concat names with rfl | ⟨front, name, rfl⟩
      · exact absurd rfl filled
      · rw [List.concat_eq_append] at stands template ⊢
        have isName : Path.IsName name := sound.named _ entry stands name (by simp)
        rw [Path.descend_concat, isTemplate_join isName] at template
        obtain ⟨stem, some, rfl⟩ := template
        cases entry with
        | directory => cases isFile
        | file content => exact ⟨⟨content, stands⟩, ⟨front, stem⟩, some, rfl⟩
    · rintro ⟨⟨content, stands⟩, slot, filled, rfl⟩
      have isName : Path.IsName (slot.stem ++ "." ++ templateExtension) :=
        sound.named _ _ stands _ (by simp [Slot.source])
      refine ⟨⟨.file content, ⟨by simp [Slot.source], stands⟩, rfl⟩, ?_⟩
      rw [Slot.source, Path.descend_concat, isTemplate_join isName]
      exact ⟨slot.stem, filled, rfl⟩
  have sources : found ∈ Set.range (List.map Slot.source) := by
    rw [Set.range_list_map]
    intro names member
    obtain ⟨slot, -, source⟩ := ((mem_found names).mp member).2
    exact ⟨slot, source⟩
  obtain ⟨slots, sources⟩ := sources
  refine ⟨slots, ⟨?_, fun slot => ?_⟩, ?_⟩
  · have ordered : found.Pairwise fun a b =>
        Location.before (root.place here ++ a) (root.place here ++ b) := by
      rw [List.pairwise_map]
      exact ((FileTree.pairwise_below _ _).filter _).filter _
    rw [← sources, List.pairwise_map] at ordered
    exact ordered
  · have member : slot ∈ slots ↔ slot.source ∈ found := by
      rw [← sources, List.mem_map]
      constructor
      · exact fun member => ⟨slot, member, rfl⟩
      · rintro ⟨other, member, same⟩
        exact Slot.source_inj.mp same ▸ member
    rw [member, mem_found]
    constructor
    · rintro ⟨stands, other, filled, same⟩
      exact ⟨Slot.source_inj.mp same ▸ filled, stands⟩
    · rintro ⟨filled, stands⟩
      exact ⟨stands, slot, filled, rfl⟩
  · rintro host rfl
    have looked : (HostM.onFiles (FileM.look (·.listFiles root)) : HostM σ _).run host = _ :=
      HostM.run_onFiles_look _ host
    rw [listed] at looked
    rw [templates, Action.run_bind_of_ok looked]
    have paths : (slots.map fun slot => root.descend slot.source) = found.map root.descend := by
      rw [← sources, List.map_map]
      rfl
    rw [paths]
    simp only [found, List.map_map, List.filter_map]
    rfl

/-! ## One template -/

variable {fill : Filler} {data : Json} {host after : Host σ} {slot : Slot} {written : Path}

/-- A template without its extension leads to its output, unless a directory stands there. -/
theorem place_withoutExtension (sound : files.IsSound here) {content : ByteArray}
    (filled : slot.stem ≠ "")
    (stands : files.tree.find? (root.place here ++ slot.source) = some (.file content)) :
    files.tree.find? ((root.descend slot.source).withoutExtension.place here) = some .directory ∨
      Path.IsName slot.stem ∧
        (root.descend slot.source).withoutExtension = root.descend slot.output ∧
        (root.descend slot.output).place here = root.place here ++ slot.output := by
  have named := sound.named _ _ stands
  have isName : Path.IsName (slot.stem ++ "." ++ templateExtension) :=
    named _ (by simp [Slot.source])
  have front : ∀ name ∈ slot.front, Path.IsName name :=
    fun name member => named name (by simp [Slot.source, member])
  have cut : (root.descend slot.source).withoutExtension =
      (root.descend slot.front).join ⟨slot.stem⟩ := by
    rw [Slot.source, Path.descend_concat, Path.withoutExtension_join isName filled (by decide)]
  have above : files.tree.find? ((root.descend slot.front).place here) = some .directory := by
    rw [Slot.source, ← List.append_assoc] at stands
    rw [Path.place_descend front]
    exact sound.closed _ _ _ stands
  have slash : '/' ∉ slot.stem.toList := fun member => isName.1 (by simp [member])
  rw [cut]
  by_cases dot : slot.stem = "."
  · rw [dot, Path.place_join (by decide)]
    exact .inl above
  · by_cases dots : slot.stem = ".."
    · rw [dots, Path.place_join (by decide)]
      exact .inl (sound.directory_dropLast above)
    · have stem : Path.IsName slot.stem := ⟨slash, filled, dot, dots⟩
      refine .inr ⟨stem, by rw [Slot.output, Path.descend_concat], ?_⟩
      rw [Slot.output, Path.descend_concat, stem.place_join, Path.place_descend front,
        List.append_assoc]

/-- What became of a template that was filled, and of all else but the open log. -/
structure Fills (fill : Filler) (data : Json) (base : Location) (content : ByteArray) (slot : Slot)
    (before after : Host σ) : Prop where
  filled : ∃ source text, String.fromUTF8? content = some source ∧ fill source data = .ok text ∧
    after.files.tree.find? (base ++ slot.output) = some (.file text.toUTF8)
  gone : after.files.tree.find? (base ++ slot.source) = none
  rest : ∀ place, before.log ≠ some place → place ≠ base ++ slot.source →
    place ≠ base ++ slot.output → after.files.tree.find? place = before.files.tree.find? place

/-- A template that is filled is replaced by its output. -/
theorem fills_of_fillFile (sound : host.files.IsSound here)
    (outside : ∀ log, host.log = some log → ¬root.place here <+: log) {content : ByteArray}
    (filled : slot.stem ≠ "")
    (stands : host.files.tree.find? (root.place here ++ slot.source) = some (.file content))
    (ran : (fillFile fill data (root.descend slot.source)).run host = (.ok written, after)) :
    Path.IsName slot.stem ∧ written = root.descend slot.output ∧ after.log = host.log ∧
      after.files.IsSound here ∧ Fills fill data (root.place here) content slot host after := by
  have source_place : (root.descend slot.source).place here = root.place here ++ slot.source :=
    Path.place_descend (fun name member => sound.named _ _ stands name (by simp [member])) _ _
  have not_log : ∀ names, host.log ≠ some (root.place here ++ names) := fun names opened =>
    outside _ opened (List.prefix_append _ _)
  rw [fillFile] at ran
  obtain ⟨source, first, looked, reading⟩ := Action.of_run_bind_ok ran
  obtain ⟨read, rfl⟩ := HostM.of_run_look_ok looked
  obtain ⟨found, at_source, decoded⟩ := Files.readText_eq_ok.mp read
  obtain ⟨location, located, found_there⟩ := Files.stat_eq_file.mp at_source
  rw [sound.locate_eq located, source_place, stands] at found_there
  cases found_there
  split at reading
  · cases reading
  · rename_i text fill_eq
    obtain ⟨done, second, changed, writing⟩ := Action.of_run_bind_ok reading
    obtain ⟨files, wrote, rfl⟩ := HostM.of_run_change_ok changed
    obtain ⟨done, third, changed, removing⟩ := Action.of_run_bind_ok writing
    obtain ⟨removed_files, removed, rfl⟩ := HostM.of_run_change_ok changed
    rw [HostM.run_info_bind] at removing
    have told : ∀ place, first.log ≠ some place →
        after.files.tree.find? place = removed_files.tree.find? place := by
      intro place other
      cases removing
      apply HostM.find?_told
      exact other
    cases removing
    obtain ⟨target, target_located, free, -⟩ := Files.writeFile_eq_ok.mp wrote
    rw [sound.locate_eq target_located] at free
    obtain ⟨isName, path, output_place⟩ :=
      (place_withoutExtension sound filled stands).resolve_left free
    have wrote_sound : files.IsSound here := (Files.applies_writeFile sound wrote).isSound sound
    have removed_sound : removed_files.IsSound here :=
      (Files.applies_removeFile wrote_sound removed).isSound wrote_sound
    have found : ∀ place, removed_files.tree.find? place =
        if place = root.place here ++ slot.source then none
        else if place = root.place here ++ slot.output then some (.file text.toUTF8)
        else first.files.tree.find? place := by
      intro place
      rw [Files.find?_of_removeFile wrote_sound.toAt removed, source_place,
        Files.find?_of_writeFile sound.toAt wrote, path, output_place]
    have different : root.place here ++ slot.output ≠ root.place here ++ slot.source := by
      simpa using slot.output_ne_source
    refine ⟨isName, path, HostM.log_told _ _ _, HostM.isSound_told removed_sound _ _,
      ⟨source, text, decoded, fill_eq, ?_⟩, ?_, fun place other not_source not_output => ?_⟩
    · rw [told _ (not_log _), found, if_neg different, if_pos rfl]
    · rw [told _ (not_log _), found, if_pos rfl]
    · rw [told place other, found, if_neg not_source, if_neg not_output]

/-! ## All templates -/

/-- What became of the templates that were filled so far, and of all else but the open log. -/
structure Filled (fill : Filler) (data : Json) (here : Location) (root : Path) (before : Host σ)
    (done : List Slot) (written : List Path) (after : Host σ) : Prop where
  sound : after.files.IsSound here
  log_eq : after.log = before.log
  named : ∀ slot ∈ done, Path.IsName slot.stem
  written_eq : written = done.map fun slot => root.descend slot.output
  outputs : ∀ slot ∈ done, ∃ content source text,
    before.files.tree.find? (root.place here ++ slot.source) = some (.file content) ∧
      String.fromUTF8? content = some source ∧ fill source data = .ok text ∧
      after.files.tree.find? (root.place here ++ slot.output) = some (.file text.toUTF8)
  gone : ∀ slot ∈ done, (∀ other ∈ done, other.output ≠ slot.source) →
    after.files.tree.find? (root.place here ++ slot.source) = none
  rest : ∀ place, before.log ≠ some place →
    (∀ slot ∈ done, place ≠ root.place here ++ slot.source ∧
      place ≠ root.place here ++ slot.output) →
    after.files.tree.find? place = before.files.tree.find? place

variable {before middle : Host σ} {done : List Slot} {outputs : List Path}

/-- A template that comes after those filled so far is still as it was. -/
theorem Filled.find?_source (filled : Filled fill data here root before done outputs middle)
    (outside : ∀ log, before.log = some log → ¬root.place here <+: log)
    (later : ∀ other ∈ done, Location.before (root.place here ++ other.source)
      (root.place here ++ slot.source)) :
    middle.files.tree.find? (root.place here ++ slot.source) =
      before.files.tree.find? (root.place here ++ slot.source) := by
  refine filled.rest _ (fun opened => outside _ opened (List.prefix_append _ _)) fun other member => ?_
  obtain ⟨source, output, -⟩ := Slot.apart_of_before (later other member)
  simpa using ⟨source.symm, output.symm⟩

/-- One more template is filled. -/
theorem Filled.concat (filled : Filled fill data here root before done outputs middle)
    (outside : ∀ log, before.log = some log → ¬root.place here <+: log)
    (some : slot.stem ≠ "") {content : ByteArray}
    (stands : before.files.tree.find? (root.place here ++ slot.source) = .some (.file content))
    (later : ∀ other ∈ done, Location.before (root.place here ++ other.source)
      (root.place here ++ slot.source))
    (ran : (fillFile fill data (root.descend slot.source)).run middle = (.ok written, after)) :
    Filled fill data here root before (done ++ [slot]) (outputs ++ [written]) after := by
  have still := filled.find?_source outside later
  rw [stands] at still
  have outside_middle : ∀ log, middle.log = .some log → ¬root.place here <+: log :=
    fun log opened => outside log (filled.log_eq ▸ opened)
  have not_log : ∀ names, middle.log ≠ .some (root.place here ++ names) := fun names opened =>
    outside_middle _ opened (List.prefix_append _ _)
  obtain ⟨isName, rfl, log_eq, sound, fills⟩ :=
    fills_of_fillFile filled.sound outside_middle some still ran
  have spared : ∀ names, names ≠ slot.source → names ≠ slot.output →
      after.files.tree.find? (root.place here ++ names) =
        middle.files.tree.find? (root.place here ++ names) := by
    intro names source output
    refine fills.rest _ (not_log names) ?_ ?_
    · simpa using source
    · simpa using output
  refine ⟨sound, log_eq.trans filled.log_eq, ?_, ?_, ?_, ?_, ?_⟩
  · intro other member
    rcases List.mem_append.mp member with old | new
    · exact filled.named other old
    · exact List.mem_singleton.mp new ▸ isName
  · rw [filled.written_eq, List.map_append, List.map_singleton]
  · intro other member
    rcases List.mem_append.mp member with old | new
    · obtain ⟨content, source, text, stood, decoded, output, found⟩ := filled.outputs other old
      obtain ⟨-, not_source, not_output⟩ := Slot.apart_of_before (later other old)
      exact ⟨content, source, text, stood, decoded, output,
        (spared _ not_source not_output).trans found⟩
    · obtain rfl := List.mem_singleton.mp new
      obtain ⟨source, text, decoded, output, found⟩ := fills.filled
      exact ⟨content, source, text, stands, decoded, output, found⟩
  · intro other member alone
    rcases List.mem_append.mp member with old | new
    · obtain ⟨not_source, -, -⟩ := Slot.apart_of_before (later other old)
      rw [spared _ not_source (alone slot (by simp)).symm]
      exact filled.gone other old fun another member => alone another (by simp [member])
    · obtain rfl := List.mem_singleton.mp new
      exact fills.gone
  · intro place other apart
    obtain ⟨not_source, not_output⟩ := apart slot (by simp)
    rw [fills.rest place (filled.log_eq ▸ other) not_source not_output]
    exact filled.rest place other fun another member => apart another (by simp [member])

/-- The templates up to one of them come before it. -/
theorem Lists.earlier {tree : FileTree} {base : Location} {slots rest : List Slot}
    (lists : Lists tree base slots) (split : slots = done ++ slot :: rest) :
    ∀ other ∈ done, Location.before (base ++ other.source) (base ++ slot.source) := by
  have ordered := lists.ordered
  rw [split] at ordered
  exact fun other member => (List.pairwise_append.mp ordered).2.2 other member slot (by simp)

/-- No output is given twice. -/
theorem Filled.nodup {slots : List Slot} (lists : Lists before.files.tree (root.place here) slots)
    (sound : before.files.IsSound here)
    (filled : Filled fill data here root before slots outputs after) : outputs.Nodup := by
  have places : ∀ slot ∈ slots,
      (root.descend slot.output).place here = root.place here ++ slot.output := by
    intro slot member
    obtain ⟨-, content, stands⟩ := (lists.mem_iff slot).mp member
    refine Path.place_descend (fun name within => ?_) _ _
    rcases List.mem_append.mp within with front | last
    · exact sound.named _ _ stands name (by simp [Slot.source, front])
    · exact List.mem_singleton.mp last ▸ filled.named slot member
  have distinct : slots.Nodup := by
    refine lists.ordered.imp ?_
    rintro slot other earlier rfl
    exact FileTree.not_before_self _ earlier
  rw [filled.written_eq]
  refine List.Nodup.map_on (fun slot member other member' same => ?_) distinct
  have same := congrArg (Path.place · here) same
  rw [places slot member, places other member', List.append_cancel_left_eq] at same
  exact Slot.output_inj.mp same

/-- A tree without templates is left as it is. -/
theorem fillTree_of_none (fill : Filler) (data : Json) (sound : host.files.IsSound here)
    (stands : host.files.stat root = .ok .directory)
    (none : ∀ slot : Slot, slot.stem ≠ "" → ∀ content,
      host.files.tree.find? (root.place here ++ slot.source) ≠ some (.file content)) :
    (fillTree fill data root).run host = (.ok [], host) := by
  obtain ⟨slots, lists, found⟩ := @exists_lists σ here host.files root sound stands
  obtain rfl : slots = [] := by
    refine List.eq_nil_iff_forall_not_mem.mpr fun slot member => ?_
    obtain ⟨filled, content, there⟩ := (lists.mem_iff slot).mp member
    exact none slot filled content there
  rw [fillTree, Action.run_bind_of_ok (found host rfl)]
  rfl

/-- Before any template is filled all is as it is. -/
theorem filled_nil (sound : host.files.IsSound here) :
    Filled fill data here root host [] [] host :=
  ⟨sound, rfl, by simp, rfl, by simp, by simp, fun _ _ _ => rfl⟩

/-- The templates of a tree can be filled one after the other. -/
theorem Lists.concat {slots : List Slot} (lists : Lists host.files.tree (root.place here) slots)
    (outside : ∀ log, host.log = some log → ¬root.place here <+: log) :
    ∀ done slot rest, slots = done ++ slot :: rest → ∀ outputs middle written last,
      Filled fill data here root host done outputs middle →
        (fillFile fill data (root.descend slot.source)).run middle = (.ok written, last) →
          Filled fill data here root host (done ++ [slot]) (outputs ++ [written]) last := by
  intro done slot rest split outputs middle written last filled ran
  obtain ⟨some, content, there⟩ := (lists.mem_iff slot).mp (by simp [split])
  exact filled.concat outside some there (lists.earlier split) ran

/-- The templates of a tree are filled in order. -/
theorem run_fillTree {slots : List Slot}
    (found : (templates root).run host =
      (.ok (slots.map fun slot => root.descend slot.source), host)) :
    (fillTree fill data root).run host =
      (slots.mapM fun slot => fillFile fill data (root.descend slot.source)).run host := by
  rw [fillTree, Action.run_bind_of_ok found, List.mapM_map]
  rfl

/-- When a tree is filled all its templates are. -/
theorem filled_of_fillTree {outputs : List Path} (sound : host.files.IsSound here)
    (stands : host.files.stat root = .ok .directory)
    (outside : ∀ log, host.log = some log → ¬root.place here <+: log)
    (ran : (fillTree fill data root).run host = (.ok outputs, after)) :
    ∃ slots, Lists host.files.tree (root.place here) slots ∧
      Filled fill data here root host slots outputs after := by
  obtain ⟨slots, lists, found⟩ := @exists_lists σ here host.files root sound stands
  rw [run_fillTree (found host rfl)] at ran
  exact ⟨slots, lists, Action.of_run_mapM_ok (lists.concat outside) (filled_nil sound) ran⟩

/-- A tree is filled only if it says where it is. -/
theorem text_ne_of_fillTree {outputs : List Path}
    (ran : (fillTree fill data root).run host = (.ok outputs, after)) : root.text ≠ "" := by
  rw [fillTree] at ran
  obtain ⟨found, middle, looked, -⟩ := Action.of_run_bind_ok ran
  rw [templates] at looked
  obtain ⟨items, first, looked, -⟩ := Action.of_run_bind_ok looked
  exact Files.text_ne_of_listFiles (HostM.of_run_look_ok looked).1

section Sample

/-- A machine with a template whose output is another template, and a file between them. -/
def sampleHost : Host Unit where
  files := (((Files.mk .empty []).plant [] "t/a.hbs" "one".toUTF8).plant [] "t/a.hbs.hbs"
    "two".toUTF8).plant [] "t/b" "three".toUTF8
  log := none
  now := ⟨0⟩
  uptime := 0
  bundlers := []
  store := ()

end Sample

end Scaffold

end PageBuild
