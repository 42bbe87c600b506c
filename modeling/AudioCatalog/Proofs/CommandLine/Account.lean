import AudioCatalog.CommandLine.Program
import AudioCatalog.Proofs.FileSystem.Root
import AudioCatalog.Proofs.Import.Pool

/-!
# The account of an import

The command that imports files tells of each of them in one line, and sums them up, whatever
its decoder is.  `Accounts` says what such a transcript has to do with the imports and their
commits, of which there is one for each file that is told to be committed.  A file that was
skipped counts as imported in the sum all the same.
-/

namespace AudioCatalog

open Contest (State)

/-! ## Three ways to end -/

/-- Whether an import ended with its file left alone. -/
def Conclusion.skipped : Conclusion → Bool
  | .ok (.rejected ..) => true
  | .ok (.committed _) | .error _ => false

namespace CommandLine

/-- The line about an import, which is printed, or printed as an error. -/
def lineOf : Conclusion → String ⊕ String
  | .ok (.committed receipt) =>
    let manner := s!"({receipt.effect.label}, {receipt.verdict.label})"
    .inl s!"  {receipt.path.shown} -> {receipt.identity.label} {manner}"
  | .ok (.rejected path reason) => .inl s!"  {path.shown} skipped: {reason.message}"
  | .error fault => .inr s!"  {fault.message}"

theorem outcomeLine_eq (conclusion : Conclusion) :
    outcomeLine conclusion = (lineOf conclusion).getLeft? := by
  rcases conclusion with fault | receipt | ⟨path, reason⟩ <;> rfl

theorem faultLine_eq (conclusion : Conclusion) :
    faultLine conclusion = (lineOf conclusion).getRight? := by
  rcases conclusion with fault | receipt | ⟨path, reason⟩ <;> rfl

/-- Every import is committed, skipped or failed. -/
theorem countP_receipt_add_skipped_add_length (conclusions : List Conclusion) :
    conclusions.countP (·.receipt?.isSome) + conclusions.countP (·.skipped) +
      (conclusions.filterMap faultLine).length = conclusions.length := by
  induction conclusions with
  | nil => rfl
  | cons conclusion rest ih =>
      rw [List.countP_cons, List.countP_cons, List.length_cons, ← ih]
      rcases conclusion with fault | receipt | ⟨path, reason⟩
      · simp only [Conclusion.receipt?, Conclusion.skipped, faultLine, List.filterMap_cons,
          List.length_cons, Option.isSome_none, Bool.false_eq_true, if_false]
        omega
      · simp only [Conclusion.receipt?, Conclusion.skipped, faultLine, List.filterMap_cons,
          Option.isSome_some, Bool.false_eq_true, if_true, if_false]
        omega
      · simp only [Conclusion.receipt?, Conclusion.skipped, faultLine, List.filterMap_cons,
          Option.isSome_none, Bool.false_eq_true, if_true, if_false]
        omega

theorem filterMap_faultLine_eq_nil {conclusions : List Conclusion} :
    conclusions.filterMap faultLine = [] ↔ ∀ conclusion ∈ conclusions, conclusion.isOk := by
  rw [List.filterMap_eq_nil_iff]
  refine forall₂_congr fun conclusion _ => ?_
  rcases conclusion with fault | outcome
  · exact iff_of_false (Option.some_ne_none _) Bool.false_ne_true
  · exact iff_of_true rfl rfl

/-! ## Imports of some files -/

/-- Imports of files that a command line names or leads to, side by side. -/
def imports {κ : Type} (decoder : Decoder Catalog) (options : Options) (handling : Handling)
    (lock : Digest → κ) (files : List Pathname) : Parallel (Fin files.length) κ where
  importer _ := importerOf decoder options
  job i := .direct files[i] handling none
  lock := lock

/-- A transcript that is right about the imports of files into a catalog: how each of them
ended, and which commits there were. -/
structure Accounts (catalog : Pathname) (files : List Pathname)
    (commits : List (Parallel.Commit (Fin files.length)))
    (conclusion : Fin files.length → Conclusion) (transcript : Transcript) : Prop where
  /-- Each import tells of its file. -/
  own : ∀ i, (conclusion i).path = files[i]
  /-- No import is committed twice. -/
  distinct : (commits.map (·.entrant)).Nodup
  /-- There is a commit of those imports that have a receipt to tell of. -/
  committed : ∀ i, i ∈ commits.map (·.entrant) ↔ (conclusion i).receipt?.isSome
  /-- What they tell is what was committed. -/
  shows : ∀ i, ∀ receipt ∈ (conclusion i).receipt?,
    ∃ commit ∈ commits, commit.entrant = i ∧ commit.Shows receipt
  output :
    let imported := commits.length + (List.ofFn conclusion).countP (·.skipped)
    transcript.output =
      [s!"=== Importing into {catalog.shown} ===", s!"Found {files.length} files to import"]
        ++ (List.finRange files.length).filterMap (fun i => (lineOf (conclusion i)).getLeft?)
        ++ ["", s!"=== Imported {imported} of {files.length} files ==="]
  errors : transcript.errors =
    (List.finRange files.length).filterMap fun i => (lineOf (conclusion i)).getRight?
  code : transcript.code = if ∀ i, (conclusion i).isOk then 0 else 1

variable {κ : Type} {decoder : Decoder Catalog} {options : Options} {handling : Handling}
  {lock : Digest → κ} {files : List Pathname} {others : World → World → Prop}
  {first state : State (Fin files.length)}
  {commits : List (Parallel.Commit (Fin files.length))} {start world : World}
  {conclusion : Fin files.length → Conclusion}

/-- Files that are imported one after the other are those of a pool with one worker. -/
theorem importAll_eq_inTurn (decoder : Decoder Catalog) (options : Options) (handling : Handling)
    (lock : Digest → κ) (files : List Pathname) (indices : List (Fin files.length)) :
    ∀ world, importAll (importerOf decoder options) handling (indices.map (files[·])) world =
      (imports decoder options handling lock files).inTurn indices world := by
  induction indices with
  | nil => exact fun _ => rfl
  | cons i rest ih =>
      intro world
      have hrest := ih ((importerOf decoder options).run (.direct files[i] handling none) world).1
      simp only [List.map_cons, importAll, Parallel.inTurn, hrest]
      rfl

/-- All files, imported one after the other. -/
theorem exists_run_of_importAll (decoder : Decoder Catalog) (options : Options)
    (handling : Handling) (lock : Digest → κ) (files : List Pathname)
    (others : World → World → Prop) (start : World) :
    let ended := importAll (importerOf decoder options) handling files start
    ∃ commits conclusion, (imports decoder options handling lock files).Run others
        ⟨start, fun _ => .starting⟩ commits ⟨ended.1, fun i => .finished (conclusion i)⟩ ∧
      List.ofFn conclusion = ended.2 := by
  have hall := importAll_eq_inTurn decoder options handling lock files (List.finRange _) start
  simp only [Fin.getElem_fin, List.map_getElem_finRange] at hall
  rw [hall]
  exact Parallel.exists_run_inTurn _ others start

/-- Those with a property are as many as a list of just them has, without repetition. -/
theorem length_eq_countP {n : Nat} {indices : List (Fin n)} (hdistinct : indices.Nodup)
    {p : Fin n → Bool} (hmem : ∀ i, i ∈ indices ↔ p i) :
    indices.length = (List.finRange n).countP p := by
  rw [List.countP_eq_length_filter]
  refine ((List.perm_ext_iff_of_nodup hdistinct ((List.nodup_finRange n).filter p)).mpr
    fun i => ?_).length_eq
  rw [hmem, List.mem_filter, and_iff_right (List.mem_finRange i)]

/-- Any run of the imports is accounted for. -/
theorem accounts_importTranscript (catalog : Pathname)
    (hrun : (imports decoder options handling lock files).Run others
      ⟨start, fun _ => .starting⟩ commits ⟨world, fun i => .finished (conclusion i)⟩) :
    Accounts catalog files commits conclusion
      (importTranscript catalog (List.ofFn conclusion)) := by
  have htallies := hrun.tallies (.start _ start)
  have hcommitted : commits.length = (List.ofFn conclusion).countP (·.receipt?.isSome) := by
    rw [← List.length_map (·.entrant), List.ofFn_eq_map, List.countP_map]
    exact length_eq_countP htallies.distinct fun i => (htallies.settles i).receipt
  have houtcomes : (List.ofFn conclusion).filterMap outcomeLine =
      (List.finRange files.length).filterMap fun i => (lineOf (conclusion i)).getLeft? := by
    rw [List.ofFn_eq_map, List.filterMap_map]
    exact List.filterMap_congr fun i _ => outcomeLine_eq (conclusion i)
  have hfaults : (List.ofFn conclusion).filterMap faultLine =
      (List.finRange files.length).filterMap fun i => (lineOf (conclusion i)).getRight? := by
    rw [List.ofFn_eq_map, List.filterMap_map]
    exact List.filterMap_congr fun i _ => faultLine_eq (conclusion i)
  have hlength : (List.ofFn conclusion).length = files.length := List.length_ofFn
  have hcount : files.length - ((List.ofFn conclusion).filterMap faultLine).length =
      commits.length + (List.ofFn conclusion).countP (·.skipped) := by
    have htotal := countP_receipt_add_skipped_add_length (List.ofFn conclusion)
    rw [hlength, ← hcommitted] at htotal
    omega
  refine ⟨fun i => (htallies.settles i).concerns, htallies.distinct,
    fun i => (htallies.settles i).receipt, fun i => (htallies.settles i).shows, ?_, ?_, ?_⟩
  · simp only [importTranscript, hlength, hcount, houtcomes]
  · simp only [importTranscript, hfaults]
  · simp only [importTranscript, filterMap_faultLine_eq_nil, List.forall_mem_ofFn_iff]

theorem execute_importFiles {files inside : FileSystem Catalog} {now : Timestamp}
    {storage : Storage} {catalog : Catalog} {paths : List Pathname}
    (hcommand : options.command = .importFiles paths handling)
    (hopen : files.openCatalog options.catalog readers now = (inside, .ok (storage, catalog))) :
    let ended := importAll (importerOf decoder options) handling (inside.expand paths)
      ⟨catalog, inside, fun _ => .pending, now⟩
    execute decoder options files now = (ended.1.files.closeCatalog storage ended.1.catalog,
      importTranscript options.catalog ended.2) := by
  rw [execute, hcommand]
  simp only [withCatalog, hopen, importFiles]

/-- The transcript of an import of files is an account of what was imported, with any decoder: it
has one line for each file that was found, in their order, and the sum and the exit code are right,
except that skipped files count as imported.  It is that too if the imports run side by side, with
any locks and whatever others do in between. -/
theorem imports_accounted_for (decoder : Decoder Catalog) {files inside : FileSystem Catalog}
    {now : Timestamp} {storage : Storage} {catalog : Catalog} {paths : List Pathname}
    (hcommand : options.command = .importFiles paths handling)
    (hopen : files.openCatalog options.catalog readers now = (inside, .ok (storage, catalog)))
    (lock : Digest → κ) (others : World → World → Prop) :
    let found := inside.expand paths
    let first : State (Fin found.length) :=
      ⟨⟨catalog, inside, fun _ => .pending, now⟩, fun _ => .starting⟩
    (∃ commits conclusion world transcript,
      (imports decoder options handling lock found).Run others first commits
        ⟨world, fun i => .finished (conclusion i)⟩ ∧
      execute decoder options files now =
        (world.files.closeCatalog storage world.catalog, transcript) ∧
      Accounts options.catalog found commits conclusion transcript) ∧
    ∀ commits conclusion world,
      (imports decoder options handling lock found).Run others first commits
        ⟨world, fun i => .finished (conclusion i)⟩ →
      Accounts options.catalog found commits conclusion
        (importTranscript options.catalog (List.ofFn conclusion)) := by
  intro found first
  refine ⟨?_, fun commits conclusion world hrun =>
    accounts_importTranscript options.catalog hrun⟩
  obtain ⟨commits, conclusion, hrun, hconclusions⟩ :=
    exists_run_of_importAll decoder options handling lock found others first.world
  refine ⟨commits, conclusion, _, _, hrun, ?_, accounts_importTranscript options.catalog hrun⟩
  rw [execute_importFiles hcommand hopen, hconclusions]

/-! ## An empty file -/

/-- A root directory with nothing but an empty file called `a`. -/
def emptyFile : FileSystem Catalog :=
  ⟨[([97], .file (.data [] 0) 0)], []⟩

/-- The command line that imports the file called `a` into a catalog in memory. -/
def importOfEmpty : Options where
  catalog := ⟨DatabaseName.memoryName⟩
  timeoutSeconds := 30
  threads := none
  logLevel := none
  command := .importFiles [.ofRoot [97]] ⟨true, true⟩

theorem imports_accounted_for_of_empty : ∃ catalog,
    importOfEmpty.command = .importFiles [.ofRoot [97]] ⟨true, true⟩ ∧
      emptyFile.openCatalog importOfEmpty.catalog readers 0 =
        (emptyFile, .ok (.exclusive, catalog)) ∧
      ∃ commits conclusion, Accounts importOfEmpty.catalog (emptyFile.expand [.ofRoot [97]])
        commits conclusion (run importOfEmpty emptyFile 0).2 := by
  refine ⟨{ Catalog.empty with access := .blind }, rfl, rfl, ?_⟩
  obtain ⟨⟨commits, conclusion, world, transcript, -, hrun, haccounts⟩, -⟩ :=
    imports_accounted_for WaveDecoder.standard.decoder
      (rfl : importOfEmpty.command = .importFiles [.ofRoot [97]] ⟨true, true⟩)
      (rfl : emptyFile.openCatalog importOfEmpty.catalog readers 0 =
        (emptyFile, .ok (.exclusive, { Catalog.empty with access := .blind })))
      id fun _ _ => False
  refine ⟨commits, conclusion, ?_⟩
  rw [run, hrun]
  exact haccounts

theorem importAll_emptyFile (decoder : Decoder Catalog) (options : Options) {world : World}
    (hfiles : world.files = emptyFile) :
    importAll (importerOf decoder options) ⟨true, true⟩ (emptyFile.expand [.ofRoot [97]]) world =
      (world, [.ok (.rejected (.ofRoot [97]) .emptyFile)]) := by
  have hname : PlainName [97] := by decide
  have hadmit : world.admit (.ofRoot [97]) = .ok (.error .emptyFile) :=
    hname.rejected (by decide) (by rw [hfiles]; rfl) (rfl : Body.size (.data [] 0) = 0)
  have hrun : (importerOf decoder options).run (.direct (.ofRoot [97]) ⟨true, true⟩ none) world =
      (world, .ok (.rejected (.ofRoot [97]) .emptyFile)) := by
    rw [Importer.run_eq]
    simp only [ImportJob.direct, hadmit]
  rw [FileSystem.expand, List.flatMap_singleton, hname.expandInput_eq rfl, importAll, hrun]
  rfl

/-- An empty file is skipped, so nothing is written to the catalog, and yet it is told to be
imported. -/
theorem skipped_told_to_be_imported : ∃ catalog conclusions,
    let world : World := ⟨catalog, emptyFile, fun _ => .pending, 0⟩
    emptyFile.openCatalog importOfEmpty.catalog readers 0 =
        (emptyFile, .ok (.exclusive, catalog)) ∧
      importAll (importerOf WaveDecoder.standard.decoder importOfEmpty) ⟨true, true⟩
        (emptyFile.expand [.ofRoot [97]]) world = (world, conclusions) ∧
      conclusions.countP (·.receipt?.isSome) = 0 ∧
      (run importOfEmpty emptyFile 0).2 = ⟨["=== Importing into :memory: ===",
        "Found 1 files to import", "  /a skipped: file is empty", "",
        "=== Imported 1 of 1 files ==="], [], 0⟩ := by
  have hall := importAll_emptyFile WaveDecoder.standard.decoder importOfEmpty
    (rfl : (⟨{ Catalog.empty with access := .blind }, emptyFile, fun _ => .pending, 0⟩ :
      World).files = emptyFile)
  have hopen : emptyFile.openCatalog importOfEmpty.catalog readers 0 =
      (emptyFile, .ok (.exclusive, { Catalog.empty with access := .blind })) := rfl
  refine ⟨_, _, hopen, hall, rfl, ?_⟩
  rw [run, execute_importFiles rfl hopen, hall]
  decide +kernel

end CommandLine

end AudioCatalog
