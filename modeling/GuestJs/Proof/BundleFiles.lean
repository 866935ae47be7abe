import GuestJs.Bundle.Builder
import GuestJs.Library.Tables
import Mathlib.Data.List.Induction
import Mathlib.Data.List.Perm.Basic

/-!
# What a bundle is built of

Files are added one at a time, and each is refused for itself or for one before it. So whether all of
them are taken, and what they make, does not depend on their order.
-/

namespace GuestJs

open Fallible

section Files

variable (toolchain : Toolchain)

def moduleNames (files : List (Name × List UInt8)) : List Name :=
  files.filterMap fun file => ModuleName.fromPath file.1

def dataPaths (files : List (Name × List UInt8)) : List Name :=
  (files.filter fun file => ModuleName.fromPath file.1 = none).map Prod.fst

def Transpiles (file : Name × List UInt8) (text : String) : Prop :=
  ∃ source, fromUtf8 file.2 = some source ∧ toolchain.transpile file.1 source = .ok text

/-- Nothing is wrong with any of the files, nor with two of them together. -/
structure Accepted (files : List (Name × List UInt8)) : Prop where
  named : ∀ file ∈ files, BundlePath.isNamed file.1 = true
  modules : (moduleNames files).Nodup
  data : (dataPaths files).Nodup
  transpiles : ∀ file ∈ files, ModuleName.fromPath file.1 ≠ none →
    ∃ text, Transpiles toolchain file text

/-- The maps have the files, and nothing else. -/
structure Contains (modules : Std.ExtTreeMap Name String)
    (data : Std.ExtTreeMap Name (List UInt8)) (files : List (Name × List UInt8)) : Prop where
  modules : ∀ name text, modules[name]? = some text ↔
    ∃ file ∈ files, ModuleName.fromPath file.1 = some name ∧ Transpiles toolchain file text
  data : ∀ path contents, data[path]? = some contents ↔
    (path, contents) ∈ files ∧ ModuleName.fromPath path = none

end Files

variable {toolchain : Toolchain} {files files' : List (Name × List UInt8)}
  {file : Name × List UInt8}

theorem mem_moduleNames {name : Name} :
    name ∈ moduleNames files ↔ ∃ file ∈ files, ModuleName.fromPath file.1 = some name :=
  List.mem_filterMap

theorem mem_dataPaths {path : Name} :
    path ∈ dataPaths files ↔
      (∃ contents, (path, contents) ∈ files) ∧ ModuleName.fromPath path = none := by
  simp only [dataPaths, List.mem_map, List.mem_filter, decide_eq_true_eq]
  constructor
  · rintro ⟨⟨path, contents⟩, ⟨hmem, hnone⟩, rfl⟩
    exact ⟨⟨contents, hmem⟩, hnone⟩
  · rintro ⟨⟨contents, hmem⟩, hnone⟩
    exact ⟨(path, contents), ⟨hmem, hnone⟩, rfl⟩

theorem Accepted.perm (h : Accepted toolchain files) (hperm : files.Perm files') :
    Accepted toolchain files' where
  named := fun file hmem => h.named file (hperm.mem_iff.mpr hmem)
  modules := (hperm.filterMap _).nodup_iff.mp h.modules
  data := ((hperm.filter _).map _).nodup_iff.mp h.data
  transpiles := fun file hmem => h.transpiles file (hperm.mem_iff.mpr hmem)

theorem moduleNames_append_singleton :
    moduleNames (files ++ [file]) = moduleNames files ++ (ModuleName.fromPath file.1).toList := by
  rw [moduleNames, List.filterMap_append]
  cases hname : ModuleName.fromPath file.1 <;> simp [moduleNames, hname]

theorem dataPaths_append_singleton :
    dataPaths (files ++ [file]) =
      dataPaths files ++ if ModuleName.fromPath file.1 = none then [file.1] else [] := by
  rw [dataPaths, List.filter_append, List.map_append]
  by_cases hnone : ModuleName.fromPath file.1 = none <;> simp [dataPaths, hnone]

theorem Accepted.of_append (h : Accepted toolchain (files ++ files')) : Accepted toolchain files where
  named := fun file hmem => h.named file (List.mem_append_left _ hmem)
  modules := by
    have hmodules := h.modules
    rw [moduleNames, List.filterMap_append] at hmodules
    exact (List.nodup_append.mp hmodules).1
  data := by
    have hdata := h.data
    rw [dataPaths, List.filter_append, List.map_append] at hdata
    exact (List.nodup_append.mp hdata).1
  transpiles := fun file hmem => h.transpiles file (List.mem_append_left _ hmem)

/-- One more file is accepted when it is good itself, and its name is new where it has to be. -/
theorem Accepted.append_singleton (h : Accepted toolchain files)
    (hnamed : BundlePath.isNamed file.1 = true)
    (hmodules : (moduleNames (files ++ [file])).Nodup) (hdata : (dataPaths (files ++ [file])).Nodup)
    (htranspiles : ModuleName.fromPath file.1 ≠ none → ∃ text, Transpiles toolchain file text) :
    Accepted toolchain (files ++ [file]) where
  named := List.forall_mem_append.mpr ⟨h.named, List.forall_mem_singleton.mpr hnamed⟩
  modules := hmodules
  data := hdata
  transpiles := List.forall_mem_append.mpr ⟨h.transpiles, List.forall_mem_singleton.mpr htranspiles⟩

/-- The last file is refused for itself, or for one before it. -/
theorem accepted_append_singleton :
    Accepted toolchain (files ++ [file]) ↔
      Accepted toolchain files ∧ BundlePath.isNamed file.1 = true ∧
        ((∃ name text, ModuleName.fromPath file.1 = some name ∧ name ∉ moduleNames files ∧
            Transpiles toolchain file text) ∨
          ModuleName.fromPath file.1 = none ∧ file.1 ∉ dataPaths files) := by
  constructor
  · intro h
    have hlast : file ∈ files ++ [file] := List.mem_append_right _ List.mem_cons_self
    refine ⟨h.of_append, h.named file hlast, ?_⟩
    cases hname : ModuleName.fromPath file.1 with
    | none =>
        have hdata := h.data
        rw [dataPaths_append_singleton, if_pos hname, ← List.concat_eq_append,
          List.nodup_concat] at hdata
        exact Or.inr ⟨rfl, hdata.1⟩
    | some name =>
        obtain ⟨text, htext⟩ := h.transpiles file hlast (by rw [hname]; nofun)
        have hmodules := h.modules
        rw [moduleNames_append_singleton, hname, Option.toList_some, ← List.concat_eq_append,
          List.nodup_concat] at hmodules
        exact Or.inl ⟨name, text, rfl, hmodules.1, htext⟩
  · rintro ⟨h, hnamed, ⟨name, text, hname, hnew, htext⟩ | ⟨hname, hnew⟩⟩
    · refine h.append_singleton hnamed ?_ ?_ fun _ => ⟨text, htext⟩
      · rw [moduleNames_append_singleton, hname, Option.toList_some, ← List.concat_eq_append,
          List.nodup_concat]
        exact ⟨hnew, h.modules⟩
      · rw [dataPaths_append_singleton, hname, if_neg nofun, List.append_nil]
        exact h.data
    · refine h.append_singleton hnamed ?_ ?_ fun hne => absurd hname hne
      · rw [moduleNames_append_singleton, hname, Option.toList_none, List.append_nil]
        exact h.modules
      · rw [dataPaths_append_singleton, if_pos hname, ← List.concat_eq_append, List.nodup_concat]
        exact ⟨hnew, h.data⟩

theorem Transpiles.unique {text text' : String} (h : Transpiles toolchain file text)
    (h' : Transpiles toolchain file text') : text = text' := by
  obtain ⟨source, hsource, htext⟩ := h
  obtain ⟨source', hsource', htext'⟩ := h'
  obtain rfl : source = source' := Option.some.inj (hsource.symm.trans hsource')
  exact Except.ok.inj (htext.symm.trans htext')

section Maps

variable {modules : Std.ExtTreeMap Name String} {data : Std.ExtTreeMap Name (List UInt8)}
  {name : Name} {text : String}

theorem Contains.mem_modules (hcontains : Contains toolchain modules data files)
    (haccepted : Accepted toolchain files) : name ∈ modules ↔ name ∈ moduleNames files := by
  rw [Tables.mem_iff_exists, mem_moduleNames]
  constructor
  · rintro ⟨text, hfound⟩
    obtain ⟨file, hmem, hname, -⟩ := (hcontains.modules name text).mp hfound
    exact ⟨file, hmem, hname⟩
  · rintro ⟨file, hmem, hname⟩
    obtain ⟨text, htext⟩ := haccepted.transpiles file hmem (by rw [hname]; nofun)
    exact ⟨text, (hcontains.modules name text).mpr ⟨file, hmem, hname, htext⟩⟩

theorem Contains.mem_data {path : Name} (hcontains : Contains toolchain modules data files) :
    path ∈ data ↔ path ∈ dataPaths files := by
  simp only [Tables.mem_iff_exists, mem_dataPaths, hcontains.data, exists_and_right]

theorem Contains.isEmpty_modules (hcontains : Contains toolchain modules data files)
    (haccepted : Accepted toolchain files) : modules.isEmpty = false ↔ moduleNames files ≠ [] := by
  rw [Std.ExtTreeMap.isEmpty_eq_false_iff, Std.ExtTreeMap.eq_empty_iff_forall_not_mem, ne_eq,
    List.eq_nil_iff_forall_not_mem]
  simp only [hcontains.mem_modules haccepted]

theorem Contains.insert_module (hcontains : Contains toolchain modules data files)
    (hname : ModuleName.fromPath file.1 = some name) (hnew : name ∉ modules)
    (htext : Transpiles toolchain file text) :
    Contains toolchain (modules.insert name text) data (files ++ [file]) where
  modules := by
    intro other text'
    have hfresh : ∀ file' ∈ files, ModuleName.fromPath file'.1 = some name →
        ¬Transpiles toolchain file' text' := fun file' hmem hname' htext' =>
      hnew (Tables.mem_iff_exists.mpr
        ⟨text', (hcontains.modules name text').mpr ⟨file', hmem, hname', htext'⟩⟩)
    simp only [Tables.getElem?_insert, List.mem_append, List.mem_singleton, or_and_right,
      exists_or, exists_eq_left]
    by_cases hother : other = name
    · subst other
      rw [if_pos rfl, Option.some.injEq]
      constructor
      · rintro rfl
        exact Or.inr ⟨hname, htext⟩
      · rintro (⟨file', hmem, hname', htext'⟩ | ⟨-, htext'⟩)
        · exact absurd htext' (hfresh file' hmem hname')
        · exact htext.unique htext'
    · rw [if_neg hother, hcontains.modules, or_iff_left]
      rintro ⟨hname', -⟩
      exact hother (Option.some.inj (hname'.symm.trans hname))
  data := by
    intro path contents
    rw [hcontains.data, List.mem_append, List.mem_singleton, or_and_right, or_iff_left]
    rintro ⟨rfl, hnone⟩
    cases hname.symm.trans hnone

theorem Contains.insert_data (hcontains : Contains toolchain modules data files)
    (hname : ModuleName.fromPath file.1 = none) (hnew : file.1 ∉ data) :
    Contains toolchain modules (data.insert file.1 file.2) (files ++ [file]) where
  modules := by
    intro other text'
    simp only [hcontains.modules, List.mem_append, List.mem_singleton, or_and_right, exists_or,
      exists_eq_left, hname, reduceCtorEq, false_and, or_false]
  data := by
    intro path contents
    rw [Tables.getElem?_insert, List.mem_append, List.mem_singleton, or_and_right]
    by_cases hpath : path = file.1
    · subst path
      rw [if_pos rfl, Option.some.injEq]
      constructor
      · rintro rfl
        exact Or.inr ⟨rfl, hname⟩
      · rintro (⟨hmem, hnone⟩ | ⟨hfile, -⟩)
        · exact absurd (Tables.mem_iff_exists.mpr
            ⟨contents, (hcontains.data file.1 contents).mpr ⟨hmem, hnone⟩⟩) hnew
        · exact (congrArg Prod.snd hfile).symm
    · rw [if_neg hpath, hcontains.data, or_iff_left]
      rintro ⟨rfl, -⟩
      exact hpath rfl

/-- The files say what the maps are. -/
theorem Contains.unique {modules' : Std.ExtTreeMap Name String}
    {data' : Std.ExtTreeMap Name (List UInt8)} (h : Contains toolchain modules data files)
    (h' : Contains toolchain modules' data' files') (hperm : files.Perm files') :
    modules = modules' ∧ data = data' := by
  constructor
  · refine Std.ExtTreeMap.ext_getElem? fun name => Option.ext fun text => ?_
    simp only [h.modules, h'.modules, hperm.mem_iff]
  · refine Std.ExtTreeMap.ext_getElem? fun path => Option.ext fun contents => ?_
    simp only [h.data, h'.data, hperm.mem_iff]

end Maps

namespace BundleBuilder

variable {builder builder' : BundleBuilder} {path : Name} {contents : List UInt8}

/-- What adding a file does when nothing is wrong with it. -/
def Adds (toolchain : Toolchain) (file : Name × List UInt8) (builder builder' : BundleBuilder) :
    Prop :=
  (∃ name text, ModuleName.fromPath file.1 = some name ∧ name ∉ builder.modules ∧
    Transpiles toolchain file text ∧
      builder' = { builder with modules := builder.modules.insert name text }) ∨
  ModuleName.fromPath file.1 = none ∧ file.1 ∉ builder.data ∧
    builder' = { builder with data := builder.data.insert file.1 file.2 }

theorem exec_insertModule_ok {path : BundlePath} {source : String} :
    exec (insertModule toolchain path source) builder = (.ok (), builder') ↔
      ∃ name text, ModuleName.fromPath path.path = some name ∧ name ∉ builder.modules ∧
        toolchain.transpile path.path source = .ok text ∧
          builder' = { builder with modules := builder.modules.insert name text } := by
  unfold insertModule BundlePath.moduleName
  cases hname : ModuleName.fromPath path.path with
  | none =>
      constructor
      · rintro ⟨⟩
      · rintro ⟨_, _, ⟨⟩, _⟩
  | some name =>
      simp only [exec_bind, exec_get]
      cases hnew : builder.modules.contains name with
      | true =>
          constructor
          · rintro ⟨⟩
          · rintro ⟨_, _, ⟨⟩, hfresh, _⟩
            exact absurd (Std.ExtTreeMap.mem_iff_contains.mpr hnew) hfresh
      | false =>
          simp only [exec_check_bind_ok, exec_modify_ok]
          have hfresh : name ∉ builder.modules := by
            rw [Std.ExtTreeMap.mem_iff_contains, hnew]
            exact Bool.false_ne_true
          constructor
          · rintro ⟨text, htext, hwritten⟩
            exact ⟨name, text, rfl, hfresh, htext, hwritten⟩
          · rintro ⟨_, text, ⟨⟩, -, htext, hwritten⟩
            exact ⟨text, htext, hwritten⟩

theorem exec_insertData_ok {path : BundlePath} :
    exec (insertData toolchain path contents) builder = (.ok (), builder') ↔
      path.path ∉ builder.data ∧
        builder' = { builder with data := builder.data.insert path.path contents } := by
  unfold insertData
  rw [Std.ExtTreeMap.mem_iff_contains]
  simp only [exec_bind, exec_get]
  cases hnew : builder.data.contains path.path with
  | true =>
      constructor
      · rintro ⟨⟩
      · rintro ⟨hfresh, -⟩
        exact absurd rfl hfresh
  | false =>
      rw [exec_modify_ok]
      exact (and_iff_right Bool.false_ne_true).symm

theorem exec_insertFile_ok {path : BundlePath} :
    exec (insertFile toolchain path contents) builder = (.ok (), builder') ↔
      Adds toolchain (path.path, contents) builder builder' := by
  unfold insertFile BundlePath.moduleName Adds
  cases hname : ModuleName.fromPath path.path with
  | none =>
      rw [exec_insertData_ok]
      simp
  | some name =>
      cases hsource : fromUtf8 contents with
      | none =>
          constructor
          · rintro ⟨⟩
          · simp [Transpiles, hsource]
      | some source =>
          rw [exec_insertModule_ok]
          simp [hname, Transpiles, hsource]

theorem Adds.error_eq (h : Adds toolchain file builder builder') : builder'.error = builder.error := by
  obtain ⟨_, _, _, _, _, rfl⟩ | ⟨_, _, rfl⟩ := h <;> rfl

theorem exec_file_ok :
    exec (do insertFile toolchain (← check fun _ => BundlePath.new toolchain path) contents)
        builder = (.ok (), builder') ↔
      BundlePath.isNamed path = true ∧ Adds toolchain (path, contents) builder builder' := by
  rw [exec_check_bind_ok]
  simp only [exec_insertFile_ok]
  unfold BundlePath.new
  by_cases hnamed : BundlePath.isNamed path = true
  · rw [dif_pos hnamed, and_iff_right hnamed]
    constructor
    · rintro ⟨_, ⟨⟩, hadds⟩
      exact hadds
    · exact fun hadds => ⟨⟨path, hnamed⟩, rfl, hadds⟩
  · rw [dif_neg hnamed]
    constructor
    · rintro ⟨_, ⟨⟩, _⟩
    · rintro ⟨hnamed', _⟩
      exact absurd hnamed' hnamed

/-- A file that is taken is taken by a builder that has not failed, and leaves it so. -/
theorem file_eq_iff (hnone : builder'.error = none) :
    BundleBuilder.file toolchain builder path contents = builder' ↔
      builder.error = none ∧ BundlePath.isNamed path = true ∧
        Adds toolchain (path, contents) builder builder' := by
  unfold BundleBuilder.file attempt
  cases herror : builder.error with
  | some error =>
      constructor
      · rintro rfl
        cases herror.symm.trans hnone
      · rintro ⟨⟨⟩, -⟩
  | none =>
      rw [and_iff_right rfl, ← exec_file_ok]
      generalize hoperation : (do
        insertFile toolchain (← check fun _ => BundlePath.new toolchain path) contents) = operation
      rcases hrun : exec operation builder with ⟨result, after⟩
      cases result with
      | error error =>
          constructor
          · rintro rfl
            cases hnone
          · rintro ⟨⟩
      | ok value =>
          subst operation
          have hafter : after.error = none := (exec_file_ok.mp hrun).2.error_eq.trans herror
          have hsame : ({ after with error := none } : BundleBuilder) = after := by
            rw [← hafter]
          simp only [hsame, Prod.mk.injEq, true_and]

theorem attempt_of_error {error : Error} (herror : builder.error = some error)
    (operation : Fallible BundleBuilder Error Unit) : builder.attempt operation = builder := by
  rw [attempt, herror]

theorem add_of_error {error : Error} (herror : builder.error = some error) (addition : Addition) :
    add toolchain builder addition = builder := by
  cases addition <;> exact attempt_of_error herror _

theorem foldl_add_of_error {error : Error} (herror : builder.error = some error)
    (additions : List Addition) : additions.foldl (add toolchain) builder = builder := by
  induction additions with
  | nil => rfl
  | cons addition additions ih => rw [List.foldl_cons, add_of_error herror, ih]

/-- A builder that has the files takes one more exactly when nothing it has is of the same name. -/
theorem exists_adds_iff (haccepted : Accepted toolchain files)
    (hcontains : Contains toolchain builder.modules builder.data files) :
    (∃ builder', Adds toolchain file builder builder') ↔
      (∃ name text, ModuleName.fromPath file.1 = some name ∧ name ∉ moduleNames files ∧
          Transpiles toolchain file text) ∨
        ModuleName.fromPath file.1 = none ∧ file.1 ∉ dataPaths files := by
  constructor
  · rintro ⟨builder', ⟨name, text, hname, hnew, htext, -⟩ | ⟨hname, hnew, -⟩⟩
    · rw [hcontains.mem_modules haccepted] at hnew
      exact Or.inl ⟨name, text, hname, hnew, htext⟩
    · rw [hcontains.mem_data] at hnew
      exact Or.inr ⟨hname, hnew⟩
  · rintro (⟨name, text, hname, hnew, htext⟩ | ⟨hname, hnew⟩)
    · rw [← hcontains.mem_modules haccepted] at hnew
      exact ⟨_, Or.inl ⟨name, text, hname, hnew, htext, rfl⟩⟩
    · rw [← hcontains.mem_data] at hnew
      exact ⟨_, Or.inr ⟨hname, hnew, rfl⟩⟩

variable (toolchain) in
/-- What building has added after some files, and whether it has failed. -/
theorem foldl_file (files : List (Name × List UInt8)) (builder : BundleBuilder)
    (hbuilder : builder = files.foldl
      (fun builder file => BundleBuilder.file toolchain builder file.1 file.2) new) :
    (builder.error = none ↔ Accepted toolchain files) ∧
      (builder.error = none → Contains toolchain builder.modules builder.data files) := by
  induction files using List.reverseRecOn generalizing builder with
  | nil =>
      subst hbuilder
      refine ⟨iff_of_true rfl ⟨by simp, by simp [moduleNames], by simp [dataPaths], by simp⟩,
        fun _ => ⟨by simp [new], by simp [new]⟩⟩
  | append_singleton files file ih =>
      obtain ⟨hfailed, hmaps⟩ := ih _ rfl
      rw [List.foldl_append, List.foldl_cons, List.foldl_nil] at hbuilder
      generalize hbefore : files.foldl
        (fun builder file => BundleBuilder.file toolchain builder file.1 file.2) new = before
        at hfailed hmaps hbuilder
      rw [accepted_append_singleton]
      constructor
      · constructor
        · intro hnone
          obtain ⟨hbefore, hnamed, hadds⟩ := (file_eq_iff hnone).mp hbuilder.symm
          have haccepted := hfailed.mp hbefore
          exact ⟨haccepted, hnamed,
            (exists_adds_iff haccepted (hmaps hbefore)).mp ⟨builder, hadds⟩⟩
        · rintro ⟨haccepted, hnamed, hlast⟩
          have hbefore := hfailed.mpr haccepted
          obtain ⟨after, hadds⟩ := (exists_adds_iff haccepted (hmaps hbefore)).mpr hlast
          have hafter : after.error = none := hadds.error_eq.trans hbefore
          rw [hbuilder, (file_eq_iff hafter).mpr ⟨hbefore, hnamed, hadds⟩]
          exact hafter
      · intro hnone
        obtain ⟨hbefore, -, hadds⟩ := (file_eq_iff hnone).mp hbuilder.symm
        obtain ⟨name, text, hname, hnew, htext, rfl⟩ | ⟨hname, hnew, rfl⟩ := hadds
        · exact (hmaps hbefore).insert_module hname hnew htext
        · exact (hmaps hbefore).insert_data hname hnew

theorem build_ok {id : BundleId} {bundle : Bundle} :
    builder.build id = .ok bundle ↔ builder.error = none ∧ builder.modules.isEmpty = false ∧
      bundle = ⟨id, builder.modules, builder.data⟩ := by
  unfold build
  cases builder.error <;> cases builder.modules.isEmpty <;> simp [eq_comm]

end BundleBuilder

namespace Bundle

open BundleBuilder

variable {id : BundleId} {bundle : Bundle}

theorem fromFiles_ok_iff :
    fromFiles toolchain files id = .ok bundle ↔ Accepted toolchain files ∧ moduleNames files ≠ [] ∧
      bundle.id = id ∧ Contains toolchain bundle.modules bundle.data files := by
  unfold fromFiles
  obtain ⟨hfailed, hmaps⟩ := foldl_file toolchain files _ rfl
  generalize files.foldl
    (fun builder file => BundleBuilder.file toolchain builder file.1 file.2) new = builder
    at hfailed hmaps
  rw [build_ok]
  constructor
  · rintro ⟨hnone, hmodules, rfl⟩
    have haccepted := hfailed.mp hnone
    exact ⟨haccepted, ((hmaps hnone).isEmpty_modules haccepted).mp hmodules, rfl, hmaps hnone⟩
  · rintro ⟨haccepted, hnames, rfl, hcontains⟩
    have hnone := hfailed.mpr haccepted
    obtain ⟨hmodules, hdata⟩ := hcontains.unique (hmaps hnone) (.refl files)
    refine ⟨hnone, ((hmaps hnone).isEmpty_modules haccepted).mpr hnames, ?_⟩
    rw [← hmodules, ← hdata]

theorem exists_fromFiles_iff :
    (∃ bundle, fromFiles toolchain files id = .ok bundle) ↔
      Accepted toolchain files ∧ moduleNames files ≠ [] := by
  constructor
  · rintro ⟨bundle, hbundle⟩
    obtain ⟨haccepted, hnames, -⟩ := fromFiles_ok_iff.mp hbundle
    exact ⟨haccepted, hnames⟩
  · rintro ⟨haccepted, hnames⟩
    obtain ⟨hfailed, hmaps⟩ := foldl_file toolchain files _ rfl
    have hcontains := hmaps (hfailed.mpr haccepted)
    exact ⟨⟨id, _, _⟩, fromFiles_ok_iff.mpr ⟨haccepted, hnames, rfl, hcontains⟩⟩

theorem fromFiles_perm (hperm : files.Perm files') (h : fromFiles toolchain files id = .ok bundle) :
    fromFiles toolchain files' id = .ok bundle := by
  obtain ⟨haccepted, hnames, hid, hcontains⟩ := fromFiles_ok_iff.mp h
  refine fromFiles_ok_iff.mpr ⟨haccepted.perm hperm, ?_, hid, ?_⟩
  · intro hnil
    have hsame : (moduleNames files).Perm (moduleNames files') := hperm.filterMap _
    exact hnames (List.perm_nil.mp (hnil ▸ hsame))
  · exact ⟨fun name text => by simp only [hcontains.modules, hperm.mem_iff],
      fun path contents => by rw [hcontains.data, hperm.mem_iff]⟩

/-- **Building is exact and order independent**, and the first error is the one it ends with. -/
theorem fromFiles_exact (toolchain : Toolchain) (id : BundleId) :
    (∀ files, (∃ bundle, fromFiles toolchain files id = .ok bundle) ↔
      Accepted toolchain files ∧ moduleNames files ≠ []) ∧
    (∀ files bundle, fromFiles toolchain files id = .ok bundle →
      Contains toolchain bundle.modules bundle.data files) ∧
    (∀ files files', files.Perm files' → ∀ bundle,
      fromFiles toolchain files id = .ok bundle ↔ fromFiles toolchain files' id = .ok bundle) ∧
    ∀ (builder : BundleBuilder) (error : Error) (additions : List Addition),
      builder.error = some error →
        (additions.foldl (add toolchain) builder).build id = .error error := by
  refine ⟨fun files => exists_fromFiles_iff, fun files bundle hbundle => ?_,
    fun files files' hperm bundle => ?_, fun builder error additions herror => ?_⟩
  · exact (fromFiles_ok_iff.mp hbundle).2.2.2
  · exact ⟨fromFiles_perm hperm, fromFiles_perm hperm.symm⟩
  · rw [foldl_add_of_error herror, build, herror]

end Bundle

end GuestJs
