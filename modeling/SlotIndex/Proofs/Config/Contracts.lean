import Mathlib.Data.List.Nodup
import SlotIndex.Config.Chain

/-!
# Where contracts are written

The contracts of a chain stand in its configuration, in a file of their own, or in the files of a
directory. The files of a directory are merged one after the other, each on condition that no name in it
was there before. So whether they can be merged does not depend on their order, and neither does what a
name stands for afterwards: what it stands for in the one file that has it.

* `Table.Apart`, `Table.get?_insertAll_of_apart`: tables without a common key, and their union.
* `FileAccess.Holds`, `FileAccess.Spread`: contracts in a file, and contracts distributed over files.
* `mergeFiles_cons_eq_ok`, `exists_mergeFiles`, `get?_of_mergeFiles`: one file, and all of them.
* `exists_loadDirectory`, `spread_of_loadDirectory`: the files of a directory.
* `ContractsSource.Writes`: the sources in which contracts are written.
* **`resolve_wherever_written`**.
-/

namespace SlotIndex

/-! ## Tables without a common key -/

namespace Table

variable {κ α : Type} {t u v : Table κ α}

/-- Whether no key is in both of two tables. -/
def Apart (t u : Table κ α) : Prop := t.keys.Disjoint u.keys

theorem Apart.symm (h : t.Apart u) : u.Apart t := fun _ hu ht => h ht hu

theorem empty_apart : (empty : Table κ α).Apart u := List.disjoint_nil_left _

variable [DecidableEq κ]

theorem apart_iff_find? : t.Apart u ↔ u.keys.find? t.contains = none := by
  rw [List.find?_eq_none]
  unfold Apart List.Disjoint contains
  simp only [isSome_get?]
  exact ⟨fun h k hu ht => h ht hu, fun h k ht hu => h k hu ht⟩

theorem insertAll_apart : (t.insertAll u.entries).Apart v ↔ t.Apart v ∧ u.Apart v := by
  have hkeys : ∀ k, k ∈ (t.insertAll u.entries).keys ↔ k ∈ t.keys ∨ k ∈ u.keys :=
    fun k => mem_keys_insertAll
  unfold Apart List.Disjoint
  simp only [hkeys]
  refine ⟨fun h => ⟨fun k hk => h (.inl hk), fun k hk => h (.inr hk)⟩, ?_⟩
  rintro ⟨ht, hu⟩ k (hk | hk)
  · exact ht hk
  · exact hu hk

/-- A key has the value that it has in either table. -/
theorem get?_insertAll_of_apart (h : t.Apart u) {k : κ} {a : α} :
    (t.insertAll u.entries).get? k = some a ↔ t.get? k = some a ∨ u.get? k = some a := by
  have hentries : (t.insertAll u.entries).entries = t.entries ++ u.entries :=
    entries_insertAll (List.nodup_append'.2 ⟨t.nodup_keys, u.nodup_keys, h⟩)
  have hmem (w : Table κ α) : (k, a) ∈ w.entries ↔ w.get? k = some a := mem_entries_iff
  rw [← hmem, ← hmem, ← hmem, hentries, List.mem_append]

end Table

/-! ## Files -/

namespace FileAccess

variable (files : FileAccess Id)

/-- Whether a file can be read and holds contracts. -/
def Holds (path : String) (contracts : Contracts) : Prop :=
  ∃ text, (files.readText path).run = .ok text ∧ Contracts.parse text = some contracts

/-- Whether no contract is in both of two files. -/
def Apart (path path' : String) : Prop :=
  ∀ contracts contracts', files.Holds path contracts → files.Holds path' contracts' →
    contracts.Apart contracts'

/-- Whether contracts are distributed over files: each file can be read, no contract is in two of them,
and the contracts are those in the files. -/
structure Spread (paths : List String) (contracts : Contracts) : Prop where
  held : ∀ path ∈ paths, ∃ part, files.Holds path part
  apart : paths.Pairwise files.Apart
  get? : ∀ name decl, contracts.get? name = some decl ↔
    ∃ path ∈ paths, ∃ part, files.Holds path part ∧ part.get? name = some decl

variable {files} {path path' : String} {paths paths' : List String} {contracts contracts' : Contracts}

theorem Holds.eq (h : files.Holds path contracts) (h' : files.Holds path contracts') :
    contracts = contracts' := by
  obtain ⟨text, htext, hparse⟩ := h
  obtain ⟨text', htext', hparse'⟩ := h'
  cases htext.symm.trans htext'
  exact Option.some.inj (hparse.symm.trans hparse')

theorem Apart.symm (h : files.Apart path path') : files.Apart path' path :=
  fun _ _ hheld hheld' => (h _ _ hheld' hheld).symm

theorem pairwise_apart_of_perm (h : paths.Perm paths') :
    paths.Pairwise files.Apart ↔ paths'.Pairwise files.Apart :=
  h.pairwise_iff Apart.symm

/-- The order of files does not matter. -/
theorem Spread.of_perm (h : files.Spread paths contracts) (hperm : paths.Perm paths') :
    files.Spread paths' contracts where
  held path hpath := h.held path (hperm.mem_iff.2 hpath)
  apart := (pairwise_apart_of_perm hperm).1 h.apart
  get? name decl := by simp only [h.get? name decl, hperm.mem_iff]

end FileAccess

/-! ## Merging -/

namespace Contracts

variable {files : FileAccess Id} {directory path : String} {paths names : List String}
  {merged contracts : Contracts}

theorem loadFile_eq_ok : (loadFile files path).run = .ok contracts ↔ files.Holds path contracts := by
  unfold loadFile FileAccess.Holds
  rw [Id.run_bind]
  cases (files.readText path).run with
  | error fault => simp
  | ok text => cases hparse : parse text <;> simp [hparse]

/-- **One more file** is merged if it holds contracts and none of them was there before. -/
theorem mergeFiles_cons_eq_ok :
    (mergeFiles files directory merged (path :: paths)).run = .ok contracts ↔
      ∃ part, files.Holds path part ∧ merged.Apart part ∧
        (mergeFiles files directory (merged.insertAll part.entries) paths).run = .ok contracts := by
  simp only [← loadFile_eq_ok, Table.apart_iff_find?]
  rw [mergeFiles, Id.run_bind]
  cases (loadFile files path).run with
  | error e => simp
  | ok part => cases hfind : part.keys.find? merged.contains <;> simp [hfind, -List.find?_eq_none]

/-- **Files can be merged** if each can be read, no contract is in two of them, and none in any of them was
there before. -/
theorem exists_mergeFiles : (∃ contracts, (mergeFiles files directory merged paths).run = .ok contracts) ↔
    (∀ path ∈ paths, ∃ part, files.Holds path part) ∧ paths.Pairwise files.Apart ∧
      ∀ path ∈ paths, ∀ part, files.Holds path part → merged.Apart part := by
  induction paths generalizing merged with
  | nil => simp [mergeFiles]
  | cons path paths ih =>
    simp only [mergeFiles_cons_eq_ok]
    constructor
    · rintro ⟨contracts, part, hpart, hapart, hrest⟩
      obtain ⟨hheld, hpairwise, hmerged⟩ := ih.1 ⟨contracts, hrest⟩
      simp only [Table.insertAll_apart] at hmerged
      refine ⟨List.forall_mem_cons.2 ⟨⟨part, hpart⟩, hheld⟩, List.pairwise_cons.2 ⟨?_, hpairwise⟩,
        List.forall_mem_cons.2 ⟨?_, fun path' hpath' part' hpart' => (hmerged path' hpath' part' hpart').1⟩⟩
      · intro path' hpath' found part' hfound hpart'
        rw [hfound.eq hpart]
        exact (hmerged path' hpath' part' hpart').2
      · intro found hfound
        rwa [hfound.eq hpart]
    · rintro ⟨hheld, hpairwise, hmerged⟩
      obtain ⟨⟨part, hpart⟩, hheld⟩ := List.forall_mem_cons.1 hheld
      obtain ⟨hapart, hpairwise⟩ := List.pairwise_cons.1 hpairwise
      obtain ⟨hfirst, hmerged⟩ := List.forall_mem_cons.1 hmerged
      obtain ⟨contracts, hrest⟩ := ih.2 ⟨hheld, hpairwise, fun path' hpath' part' hpart' =>
        Table.insertAll_apart.2 ⟨hmerged path' hpath' part' hpart', hapart path' hpath' _ _ hpart hpart'⟩⟩
      exact ⟨contracts, part, hpart, hfirst part hpart, hrest⟩

/-- A name stands for what it stood for before, or for what it stands for in a file. -/
theorem get?_of_mergeFiles (h : (mergeFiles files directory merged paths).run = .ok contracts)
    {name : String} {decl : ContractDecl} : contracts.get? name = some decl ↔
      merged.get? name = some decl ∨
        ∃ path ∈ paths, ∃ part, files.Holds path part ∧ part.get? name = some decl := by
  induction paths generalizing merged with
  | nil =>
    cases h
    simp
  | cons path paths ih =>
    obtain ⟨part, hpart, hapart, hrest⟩ := mergeFiles_cons_eq_ok.1 h
    have hheld : (∃ found, files.Holds path found ∧ found.get? name = some decl) ↔
        part.get? name = some decl :=
      ⟨fun ⟨found, hfound, hget⟩ => hfound.eq hpart ▸ hget, fun hget => ⟨part, hpart, hget⟩⟩
    rw [ih hrest, Table.get?_insertAll_of_apart hapart]
    simp only [List.mem_cons, exists_eq_or_imp, hheld, or_assoc]

/-! ## Directories -/

/-- The paths of the `.json` files among the files of a directory. -/
def filesIn (directory : String) (names : List String) : List String :=
  (names.filter (Path.hasExtension "json")).map (Path.join directory)

/-- These paths in the order of the names, in which they are merged. -/
def sortedFilesIn (directory : String) (names : List String) : List String :=
  ((names.filter (Path.hasExtension "json")).mergeSort fun a b => decide (a ≤ b)).map (Path.join directory)

theorem perm_filesIn : (sortedFilesIn directory names).Perm (filesIn directory names) :=
  (List.mergeSort_perm _ _).map _

theorem loadDirectory_eq_ok : (loadDirectory files directory).run = .ok contracts ↔
    ∃ names, (files.fileNames directory).run = .ok names ∧
      (mergeFiles files directory Table.empty (sortedFilesIn directory names)).run = .ok contracts := by
  unfold loadDirectory sortedFilesIn
  rw [Id.run_bind]
  cases (files.fileNames directory).run with
  | error fault => simp
  | ok names => simp

theorem spread_of_mergeFiles (h : (mergeFiles files directory Table.empty paths).run = .ok contracts) :
    files.Spread paths contracts := by
  obtain ⟨hheld, hapart, -⟩ := exists_mergeFiles.1 ⟨contracts, h⟩
  refine ⟨hheld, hapart, fun name decl => ?_⟩
  simp [get?_of_mergeFiles h]

/-- **A directory holds what is distributed over its files.** -/
theorem spread_of_loadDirectory (h : (loadDirectory files directory).run = .ok contracts) :
    ∃ names, (files.fileNames directory).run = .ok names ∧
      files.Spread (filesIn directory names) contracts := by
  obtain ⟨names, hnames, hmerge⟩ := loadDirectory_eq_ok.1 h
  exact ⟨names, hnames, (spread_of_mergeFiles hmerge).of_perm perm_filesIn⟩

/-- **A directory can be read** if its files can, and no contract is in two of them. -/
theorem exists_loadDirectory : (∃ contracts, (loadDirectory files directory).run = .ok contracts) ↔
    ∃ names, (files.fileNames directory).run = .ok names ∧
      (∀ path ∈ filesIn directory names, ∃ part, files.Holds path part) ∧
      (filesIn directory names).Pairwise files.Apart := by
  constructor
  · rintro ⟨contracts, h⟩
    obtain ⟨names, hnames, hspread⟩ := spread_of_loadDirectory h
    exact ⟨names, hnames, hspread.held, hspread.apart⟩
  · rintro ⟨names, hnames, hheld, hapart⟩
    obtain ⟨contracts, hmerge⟩ := exists_mergeFiles.2
      ⟨fun path hpath => hheld path (perm_filesIn.mem_iff.1 hpath),
        (FileAccess.pairwise_apart_of_perm perm_filesIn).2 hapart, fun _ _ _ _ => Table.empty_apart⟩
    exact ⟨contracts, loadDirectory_eq_ok.2 ⟨names, hnames, hmerge⟩⟩

theorem loadDirectory_of_spread (hnames : (files.fileNames directory).run = .ok names)
    (h : files.Spread (filesIn directory names) contracts) :
    ∃ loaded, (loadDirectory files directory).run = .ok loaded ∧ loaded.get? = contracts.get? := by
  obtain ⟨loaded, hloaded⟩ := exists_loadDirectory.2 ⟨names, hnames, h.held, h.apart⟩
  obtain ⟨names', hnames', hspread⟩ := spread_of_loadDirectory hloaded
  cases hnames.symm.trans hnames'
  refine ⟨loaded, hloaded, funext fun name => Option.ext fun decl => ?_⟩
  rw [hspread.get?, h.get?]

theorem load_of_directory {base : String} (h : (files.isDirectory (Path.join base path)).run = true) :
    (load files base path).run = (loadDirectory files (Path.join base path)).run := by
  unfold load
  rw [Id.run_bind, if_pos h]

theorem load_of_file {base : String} (h : (files.isDirectory (Path.join base path)).run = false) :
    (load files base path).run = (loadFile files (Path.join base path)).run := by
  unfold load
  rw [Id.run_bind, if_neg (Bool.eq_false_iff.1 h)]

end Contracts

/-! ## Chains -/

/-- A chain, with the contracts as they are found by name. -/
def ChainSettings.byName (chain : Chain) : ChainSettings (String → Option ContractDecl) :=
  { chain with contracts := chain.contracts.get? }

/-- What a chain is resolved to when its contracts are known: no number may be zero. -/
def ChainDecl.resolved (decl : ChainDecl) (base : String) (contracts : String → Option ContractDecl) :
    Except ConfigError (ChainSettings (String → Option ContractDecl)) :=
  match decl.options.zeroField? with
  | some field => .error (.zeroField field)
  | none => .ok { decl with contracts, options := decl.options.below base }

theorem map_byName_resolve {files : FileAccess Id} {base : String} {decl : ChainDecl}
    {contracts : Contracts} (h : (decl.contracts.resolve files base).run = .ok contracts) :
    (decl.resolve files base).run.map ChainSettings.byName = decl.resolved base contracts.get? := by
  unfold ChainDecl.resolve ChainDecl.resolved
  rw [Id.run_bind, h]
  cases decl.options.zeroField? with
  | some field => rfl
  | none => rfl

/-- The sources in which contracts are written: the configuration itself, a file that holds them all, and a
directory over whose `.json` files they are distributed. -/
inductive ContractsSource.Writes (files : FileAccess Id) (base : String) (contracts : Contracts) :
    ContractsSource → Prop
  | inPlace {found : Contracts} (h : found.get? = contracts.get?) : Writes files base contracts (.inPlace found)
  | file {path : String} {found : Contracts} (hfile : (files.isDirectory (Path.join base path)).run = false)
      (hheld : files.Holds (Path.join base path) found) (h : found.get? = contracts.get?) :
      Writes files base contracts (.path path)
  | directory {path : String} {names : List String}
      (hdirectory : (files.isDirectory (Path.join base path)).run = true)
      (hnames : (files.fileNames (Path.join base path)).run = .ok names)
      (h : files.Spread (Contracts.filesIn (Path.join base path) names) contracts) :
      Writes files base contracts (.path path)

/-- Every source of contracts is resolved to them. -/
theorem ContractsSource.Writes.resolve_eq_ok {files : FileAccess Id} {base : String} {contracts : Contracts}
    {source : ContractsSource} (h : source.Writes files base contracts) :
    ∃ found, (source.resolve files base).run = .ok found ∧ found.get? = contracts.get? := by
  cases h with
  | inPlace h => exact ⟨_, rfl, h⟩
  | file hfile hheld h => exact ⟨_, (Contracts.load_of_file hfile).trans (Contracts.loadFile_eq_ok.2 hheld), h⟩
  | directory hdirectory hnames h =>
    obtain ⟨found, hfound, hsame⟩ := Contracts.loadDirectory_of_spread hnames h
    exact ⟨found, (Contracts.load_of_directory hdirectory).trans hfound, hsame⟩

/-- **A chain is the same wherever its contracts are written**: in the configuration, in one file, or
distributed over the files of a directory, in whatever order that is listed. It is the chain with these
contracts, unless one of its numbers is zero. A directory can be read exactly if each of its `.json` files
can, and no contract is in two of them. -/
theorem resolve_wherever_written (files : FileAccess Id) (base : String) :
    (∀ (decl : ChainDecl) (contracts : Contracts) (source source' : ContractsSource),
      source.Writes files base contracts → source'.Writes files base contracts →
        let resolve (source : ContractsSource) :=
          (ChainDecl.resolve files base { decl with contracts := source }).run.map ChainSettings.byName
        resolve source = resolve source' ∧ resolve source = decl.resolved base contracts.get?) ∧
      ∀ path, (files.isDirectory (Path.join base path)).run = true →
        ((∃ contracts, (Contracts.load files base path).run = .ok contracts) ↔
          ∃ names, (files.fileNames (Path.join base path)).run = .ok names ∧
            (∀ file ∈ Contracts.filesIn (Path.join base path) names, ∃ part, files.Holds file part) ∧
            (Contracts.filesIn (Path.join base path) names).Pairwise files.Apart) := by
  constructor
  · intro decl contracts source source' h h' resolve
    have hresolve : ∀ source : ContractsSource, source.Writes files base contracts →
        resolve source = decl.resolved base contracts.get? := by
      intro source h
      obtain ⟨found, hfound, hsame⟩ := h.resolve_eq_ok
      rw [← hsame]
      exact map_byName_resolve hfound
    exact ⟨(hresolve source h).trans (hresolve source' h').symm, hresolve source h⟩
  · intro path hpath
    rw [Contracts.load_of_directory hpath]
    exact Contracts.exists_loadDirectory

/-- A contract as it is written. -/
def sampleMember (name address : String) : String :=
  "\"" ++ name ++ "\": \x7b\"address\": \"" ++ address ++ "\"\x7d"

/-- Contracts as they are written in a file. -/
def sampleText (members : List String) : String := "\x7b" ++ ", ".intercalate members ++ "\x7d"

/-- A file with two contracts, and a directory with a file for each of them and another file. -/
def sampleFiles : FileAccess Id where
  readText path :=
    let jug := sampleMember "jug" "0x19c0976f590d67707e62397c87829d896dc0f1f1"
    let vat := sampleMember "vat" "0x35d1b3f3d7966a1dfe207aa4514c12a259a0492b"
    let texts := [("/conf/all.json", sampleText [jug, vat]), ("/conf/apart/a.json", sampleText [vat]),
      ("/conf/apart/b.json", sampleText [jug])]
    match texts.lookup path with
    | some text => .ok text
    | none => .error .notFound
  isDirectory path := decide (path = "/conf/apart")
  fileNames _ := .ok ["b.json", "notes.txt", "a.json"]

/-- The contracts in these files. -/
def sampleContracts : Contracts :=
  Table.ofList [("jug", { address := ⟨0x19c0976f590d67707e62397c87829d896dc0f1f1, by decide⟩ }),
    ("vat", { address := ⟨0x35d1b3f3d7966a1dfe207aa4514c12a259a0492b, by decide⟩ })]

theorem resolve_wherever_written_sample :
    let decl : ChainDecl := { name := "main", chainId := 1, rpcUrlVar := "RPC_URL", contracts := .path "apart" }
    decl.contracts.Writes sampleFiles "/conf" sampleContracts ∧
      (ContractsSource.path "all.json").Writes sampleFiles "/conf" sampleContracts ∧
      (decl.resolve sampleFiles "/conf").run.map ChainSettings.byName =
        (ChainDecl.resolve sampleFiles "/conf" { decl with contracts := .path "all.json" }).run.map
          ChainSettings.byName ∧
      ∃ contracts, (Contracts.load sampleFiles "/conf" "apart").run = .ok contracts := by
  intro decl
  have hmerge : (Contracts.mergeFiles sampleFiles "/conf/apart" Table.empty
      (Contracts.filesIn "/conf/apart" ["b.json", "notes.txt", "a.json"])).run = .ok sampleContracts := by
    decide +kernel
  have hspread := Contracts.spread_of_mergeFiles hmerge
  have hall : (Contracts.loadFile sampleFiles "/conf/all.json").run = .ok sampleContracts := by
    decide +kernel
  have hnames : (sampleFiles.fileNames "/conf/apart").run = .ok ["b.json", "notes.txt", "a.json"] := rfl
  have hdirectory : decl.contracts.Writes sampleFiles "/conf" sampleContracts :=
    .directory rfl hnames hspread
  have hfile : (ContractsSource.path "all.json").Writes sampleFiles "/conf" sampleContracts :=
    .file rfl (Contracts.loadFile_eq_ok.1 hall) rfl
  obtain ⟨hresolve, hload⟩ := resolve_wherever_written sampleFiles "/conf"
  exact ⟨hdirectory, hfile, (hresolve decl sampleContracts _ _ hdirectory hfile).1,
    (hload "apart" rfl).2 ⟨_, hnames, hspread.held, hspread.apart⟩⟩

end SlotIndex
