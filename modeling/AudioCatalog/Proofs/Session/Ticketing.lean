import AudioCatalog.Proofs.FileSystem.Joining
import AudioCatalog.Proofs.Session.Deferral
import AudioCatalog.Proofs.Session.Permanence

/-!
# Which path names can be put off

A ticket is made for every path name that is a text without a NUL and does not consist of blank
characters only.  It stores the path name from the root, which leads to where the given one leads
to.  A path name that an import commits is such a text as well, but it may be blank.
-/

namespace AudioCatalog

/-! ## Texts of path names -/

theorem Utf8.encode_append (first second : String) :
    encode (first ++ second) = encode first ++ encode second := by
  rw [encode, String.toList_append, List.flatMap_append]
  rfl

namespace Pathname

variable {path directory : Pathname}

/-- Whether a path name is a text that is not empty and holds no NUL. -/
def Valid (path : Pathname) : Prop :=
  ∃ text, path.text? = some text ∧ text ≠ "" ∧ '\x00' ∉ text.toList

/-- Whether a path name is a text of blank characters only. -/
def Blank (path : Pathname) : Prop :=
  ∃ text, path.text? = some text ∧ isBlankText text = true

theorem Valid.bytes_ne_nil (hvalid : path.Valid) : path.bytes ≠ [] := by
  obtain ⟨text, htext, hnonempty, -⟩ := hvalid
  intro hnil
  rw [text?, hnil] at htext
  exact hnonempty (Option.some.inj htext).symm

/-- A text inside of a directory whose path name is a text has a path name that is one. -/
theorem isSome_text?_inside (hdirectory : directory.text?.isSome) (hpath : path.text?.isSome) :
    (path.inside directory).text?.isSome := by
  obtain ⟨front, hfront⟩ := Option.isSome_iff_exists.mp hdirectory
  obtain ⟨back, hback⟩ := Option.isSome_iff_exists.mp hpath
  have hslash : Utf8.encode "/" = [slash] := by decide
  rw [inside]
  split
  · exact hpath
  · rw [child, ← Utf8.encode_of_decode? hfront, ← Utf8.encode_of_decode? hback]
    split
    · rw [← Utf8.encode_append]
      exact Option.isSome_iff_exists.mpr ⟨_, text?_ofText (front ++ back)⟩
    · rw [← List.singleton_append, ← hslash, ← Utf8.encode_append, ← Utf8.encode_append]
      exact Option.isSome_iff_exists.mpr ⟨_, text?_ofText (front ++ ("/" ++ back))⟩

theorem isAbsolute_inside (hdirectory : directory.isAbsolute = true) (path : Pathname) :
    (path.inside directory).isAbsolute = true := by
  rw [inside]
  split
  · assumption
  · rw [isAbsolute_child ?_ path.bytes]
    · exact hdirectory
    · intro hnil
      rw [isAbsolute, hnil] at hdirectory
      cases hdirectory

end Pathname

/-! ## The text of a ticket -/

namespace Catalog

variable {catalog : Catalog} {path directory : Pathname}

/-- A ticket for a path name that is valid and not blank stores what the name is inside of the
current directory. -/
theorem ticketPath_of_valid (hvalid : path.Valid) (hblank : ¬ path.Blank)
    (hdirectory : directory.text?.isSome) :
    ∃ text, ticketPath (.ok directory) path = .ok text ∧
      .ofText text = path.inside directory := by
  obtain ⟨text, htext, -, hnul⟩ := hvalid
  have hnotBlank : isBlankText text = false := by
    by_contra hother
    exact hblank ⟨text, htext, Bool.not_eq_false _ ▸ hother⟩
  have hcontains : ¬ text.toList.contains '\x00' = true := by
    rwa [List.contains_iff_mem]
  have hinside := Pathname.isSome_text?_inside hdirectory (Option.isSome_iff_exists.mpr ⟨_, htext⟩)
  obtain ⟨joined, hjoined⟩ := Option.isSome_iff_exists.mp hinside
  refine ⟨joined, ?_, Pathname.ofText_of_text? hjoined⟩
  simp only [ticketPath, htext, hnotBlank, Bool.false_eq_true, if_false, if_neg hcontains]
  rw [Pathname.inside] at hjoined
  split
  case isTrue habsolute =>
    rw [if_pos habsolute, htext] at hjoined
    exact congrArg Except.ok (Option.some.inj hjoined)
  case isFalse hrelative =>
    rw [if_neg hrelative] at hjoined
    simp only [hjoined]

/-- No ticket is made for any other path name, wherever it is. -/
theorem ticketPath_of_not_valid (h : ¬ (path.Valid ∧ ¬ path.Blank))
    (current : Except FileError Pathname) :
    ∃ reason, ticketPath current path = .error (.badPath reason) := by
  rw [ticketPath.eq_def]
  split
  case h_1 => exact ⟨_, rfl⟩
  case h_2 text htext =>
    split
    case isTrue => exact ⟨_, rfl⟩
    case isFalse hnotBlank =>
      split
      case isTrue => exact ⟨_, rfl⟩
      case isFalse hnul =>
        have hnonempty : text ≠ "" := by
          rintro rfl
          exact hnotBlank (by decide)
        refine absurd ⟨⟨text, htext, hnonempty, ?_⟩, ?_⟩ h
        · rwa [List.contains_iff_mem] at hnul
        · rintro ⟨other, hother, hblank⟩
          rw [htext] at hother
          exact hnotBlank (Option.some.inj hother ▸ hblank)

/-- Whether a ticket can be written to a catalog: nobody else is writing, writing is allowed, and
there is a number left. -/
def TakesTickets (catalog : Catalog) : Prop :=
  catalog.locked = false ∧ catalog.access ≠ .readOnly ∧
    catalog.tickets.greatestId < Table.idLimit

/-- A ticket for a path name that can be stored is made exactly if it can be written. -/
theorem exists_addTicket_iff (catalog : Catalog) {current : Except FileError Pathname}
    {text : String} (hpath : ticketPath current path = .ok text) (now : Timestamp) :
    (∃ ticket next, catalog.addTicket current path now = .ok (ticket, next)) ↔
      catalog.TakesTickets := by
  constructor
  · rintro ⟨ticket, next, hadded⟩
    obtain ⟨_, tickets, -, hinserted, -⟩ := addTicket_eq_ok hadded
    rw [addTicket, hpath] at hadded
    obtain ⟨_, hdemand, -⟩ := bind_eq_ok_iff.mp (transaction_eq_ok hadded)
    have hwritable := demandWritable_eq_ok hdemand
    exact ⟨((transaction_eq_ok_iff hwritable).mp hadded).1, hwritable,
      (catalog.tickets.isSome_insert?_iff _).mp (Option.isSome_iff_exists.mpr ⟨_, hinserted⟩)⟩
  · rintro ⟨hunlocked, hwritable, hroom⟩
    rcases catalog.addTicket_cases hpath now with
      ⟨number, tickets, -, hadded⟩ | ⟨fault, -, ⟨-, hfull⟩ | hlocked | hreadOnly⟩
    · exact ⟨_, _, hadded⟩
    · exact absurd hroom (Int.not_lt.mpr hfull)
    · rw [hunlocked] at hlocked
      cases hlocked
    · exact absurd hreadOnly hwritable

/-- A ticket that is made is pending, and is read again as it was given. -/
theorem ticket?_of_addTicket {current : Except FileError Pathname} {text : String}
    (hpath : ticketPath current path = .ok text) {now : Timestamp} {ticket : Ticket}
    {next : Catalog} (hadded : catalog.addTicket current path now = .ok (ticket, next)) :
    ticket.pending = true ∧ ticket.path = .ofText text ∧
      next.ticket? ticket.id = .ok (some ticket) := by
  rcases catalog.addTicket_cases hpath now with
    ⟨number, tickets, hinserted, hmade⟩ | ⟨fault, hrefused, -⟩
  · rw [hmade] at hadded
    cases hadded
    have hmem : (number, TicketRow.ofPath text now) ∈ tickets.rows := by
      obtain ⟨-, hrows, -⟩ := Table.insert?_eq_some hinserted
      rw [hrows]
      exact List.mem_append_right _ (List.mem_singleton_self _)
    exact ⟨rfl, rfl, ticket?_of_mem hmem rfl⟩
  · rw [hrefused] at hadded
    cases hadded

end Catalog

/-! ## Imports -/

/-- A path name that an import admits is valid. -/
theorem World.valid_of_admission {world : World} {path : Pathname} {facts : FileFacts}
    (h : world.admit path = .ok (.ok facts)) : path.Valid := by
  unfold World.admit at h
  split at h
  · cases h
  · rename_i htext
    split at h
    · cases h
    · rename_i node hopen
      obtain ⟨⟨location, found⟩, hfind, -⟩ := map_eq_ok_iff.mp hopen
      have hfollowable := FileSystem.followable_of_find hfind
      obtain ⟨text, hsome⟩ := Option.ne_none_iff_exists'.mp (mt Option.isNone_iff_eq_none.mpr htext)
      have hbytes : Utf8.encode text = path.bytes := Utf8.encode_of_decode? hsome
      refine ⟨text, hsome, ?_, fun hnul => ?_⟩
      · rintro rfl
        exact hfollowable.nonempty hbytes.symm
      · have hzero : 0 ∈ path.bytes := by
          rw [← hbytes, Utf8.encode]
          exact List.mem_flatMap.mpr ⟨_, hnul, by decide⟩
        simpa [hzero] using hfollowable.nul_free

/-- An import commits only a file that it has admitted before, in some world. -/
theorem Importer.exists_admission_of_committed (importer : Importer) {job : ImportJob}
    {others : Others} {world next : World} {receipt : Receipt}
    (h : importer.runAmong job others world = (next, .ok (.committed receipt))) :
    ∃ seen facts, World.admit seen job.path = .ok (.ok facts) := by
  have hunfinished : Phase.starting.conclusion? = none := rfl
  have hended := congrArg Prod.snd h
  simp only [runAmong] at hended
  rw [drive_step _ _ _ _ hunfinished] at hended
  simp only [advance, ImportJob.start] at hended
  cases hadmission : World.admit (others.act .starting world) job.path with
  | error error =>
      simp only [hadmission, ImportJob.failed, drive_finished] at hended
      cases hended
  | ok admission =>
      cases admission with
      | error reason =>
          simp only [hadmission, drive_finished] at hended
          cases hended
      | ok facts => exact ⟨_, facts, hadmission⟩

/-! ## Path names that can be put off -/

/-- Whether a ticket puts off the import of the file that a path name leads to: it is pending, and
its own path name starts at the root and leads to the same place. -/
structure Ticket.PutsOff (ticket : Ticket) (files : FileSystem Catalog) (path : Pathname) :
    Prop where
  pending : ticket.pending = true
  absolute : ticket.path.isAbsolute = true
  kept : path.isAbsolute = true → ticket.path = path
  destination_eq : ∀ follow, files.destination ticket.path follow = files.destination path follow
  locate_eq : ticket.path.bytes.length ≤ FileSystem.pathLimit →
    ∀ follow, files.locate ticket.path follow = files.locate path follow

namespace World

variable {world : World} {path : Pathname}

/-- Where no ticket is made for a path name, nothing changes. -/
theorem addTicket_of_not_valid (world : World) (h : ¬ (path.Valid ∧ ¬ path.Blank)) :
    ∃ reason, world.call (.addTicket path) = (world, .ticketed (.error (.badPath reason))) := by
  obtain ⟨reason, hpath⟩ := Catalog.ticketPath_of_not_valid h world.files.currentPath
  have hrefused : world.catalog.addTicket world.files.currentPath path world.now =
      .error (.badPath reason) := by
    rw [Catalog.addTicket, hpath]
  exact ⟨reason, congrArg (world.wrote .ticketed) hrefused⟩

variable {directory : Pathname} (hcurrent : world.files.currentPath = .ok directory)
  (htext : directory.text?.isSome) (hplain : ∀ name ∈ world.files.current, PlainName name)

include hcurrent htext hplain

/-- A ticket for a path name that is valid and not blank is made exactly if it can be written. -/
theorem addTicket_of_valid (hvalid : path.Valid) (hblank : ¬ path.Blank) :
    (world.catalog.TakesTickets ∧ ∃ ticket next,
      world.call (.addTicket path) =
        ({ world with catalog := next }, .ticketed (.ok ticket)) ∧
      ticket.PutsOff world.files path ∧ next.ticket? ticket.id = .ok (some ticket)) ∨
    (¬ world.catalog.TakesTickets ∧ ∃ fault,
      world.call (.addTicket path) = (world, .ticketed (.error (.store fault)))) := by
  obtain ⟨text, hstored, hinside⟩ := Catalog.ticketPath_of_valid hvalid hblank htext
  rw [← hcurrent] at hstored
  have hiff := world.catalog.exists_addTicket_iff hstored world.now
  cases hadded : world.catalog.addTicket world.files.currentPath path world.now with
  | ok added =>
      obtain ⟨ticket, next⟩ := added
      obtain ⟨hpending, hpath, hread⟩ := Catalog.ticket?_of_addTicket hstored hadded
      obtain ⟨rfl, entries, hentries⟩ := FileSystem.exists_of_currentPath hcurrent
      rw [hinside] at hpath
      refine .inl ⟨hiff.mp ⟨_, _, hadded⟩, ticket, next, congrArg (world.wrote .ticketed) hadded,
        ⟨hpending, ?_, fun habsolute => ?_, fun follow => ?_, fun hshort follow => ?_⟩, hread⟩
      · rw [hpath]
        exact Pathname.isAbsolute_inside (FileSystem.isAbsolute_pathTo _) path
      · rw [hpath, Pathname.inside, if_pos habsolute]
      · rw [hpath]
        exact FileSystem.destination_inside hentries hplain path follow
      · rw [hpath] at hshort ⊢
        exact FileSystem.locate_inside hentries hplain hvalid.bytes_ne_nil hshort follow
  | error error =>
      rcases world.catalog.addTicket_cases hstored world.now with
        ⟨number, tickets, -, hmade⟩ | ⟨fault, hrefused, -⟩
      · rw [hmade] at hadded
        cases hadded
      · refine .inr ⟨fun htakes => ?_, fault, congrArg (world.wrote .ticketed) hrefused⟩
        obtain ⟨ticket, next, hmade⟩ := hiff.mpr htakes
        rw [hmade] at hadded
        cases hadded

/-- A ticket is made for a path name that is valid and not blank, where it can be written, and any
other path name is refused as it is.  Nothing changes if no ticket is made.  The ticket puts off
the import of the file that the path name leads to, and is read again as it was given.  A path
name that an import commits is valid. -/
theorem addTicket_iff_valid (path : Pathname) :
    let ended := world.call (.addTicket path)
    ((∃ ticket, ended.2 = .ticketed (.ok ticket)) ↔
      (path.Valid ∧ ¬ path.Blank) ∧ world.catalog.TakesTickets) ∧
    ((∃ reason, ended.2 = .ticketed (.error (.badPath reason))) ↔
      ¬ (path.Valid ∧ ¬ path.Blank)) ∧
    (∀ error, ended.2 = .ticketed (.error error) → ended.1 = world) ∧
    (∀ ticket, ended.2 = .ticketed (.ok ticket) → ticket.PutsOff world.files path ∧
      ended.1.catalog.ticket? ticket.id = .ok (some ticket)) ∧
    ∀ (importer : Importer) job others before after receipt, job.path = path →
      importer.runAmong job others before = (after, .ok (.committed receipt)) → path.Valid := by
  intro ended
  have hcommits : ∀ (importer : Importer) job others before after receipt, job.path = path →
      importer.runAmong job others before = (after, .ok (.committed receipt)) → path.Valid := by
    rintro importer job others before after receipt rfl hcommitted
    obtain ⟨seen, facts, hadmission⟩ := importer.exists_admission_of_committed hcommitted
    exact valid_of_admission hadmission
  by_cases hgood : path.Valid ∧ ¬ path.Blank
  · rcases addTicket_of_valid hcurrent htext hplain hgood.1 hgood.2 with
      ⟨htakes, ticket, next, hcall, hputsOff, hread⟩ | ⟨hfull, fault, hcall⟩
    · have hended : ended = _ := hcall
      rw [hended]
      refine ⟨?_, ?_, ?_, ?_, hcommits⟩
      · exact iff_of_true ⟨ticket, rfl⟩ ⟨hgood, htakes⟩
      · exact iff_of_false (by rintro ⟨_, ⟨⟩⟩) (not_not_intro hgood)
      · rintro error ⟨⟩
      · rintro _ ⟨⟩
        exact ⟨hputsOff, hread⟩
    · have hended : ended = _ := hcall
      rw [hended]
      refine ⟨?_, ?_, fun _ _ => rfl, ?_, hcommits⟩
      · exact iff_of_false (by rintro ⟨_, ⟨⟩⟩) fun h => hfull h.2
      · exact iff_of_false (by rintro ⟨_, ⟨⟩⟩) (not_not_intro hgood)
      · rintro ticket ⟨⟩
  · obtain ⟨reason, hcall⟩ := world.addTicket_of_not_valid hgood
    have hended : ended = _ := hcall
    rw [hended]
    refine ⟨?_, ?_, fun _ _ => rfl, ?_, hcommits⟩
    · exact iff_of_false (by rintro ⟨_, ⟨⟩⟩) fun h => hgood h.1
    · exact iff_of_true ⟨reason, rfl⟩ hgood
    · rintro ticket ⟨⟩

omit hcurrent htext hplain

/-- A world in which relative path names start from an empty directory `d`. -/
def inDirectory : World :=
  { blank with files := ⟨[([100], .directory [])], [[100]]⟩ }

/-- A ticket for `a` puts off the import of `a` in the directory `d`. -/
theorem addTicket_in_directory : ∃ ticket,
    (inDirectory.call (.addTicket ⟨[97]⟩)).2 = .ticketed (.ok ticket) ∧
      ticket.PutsOff inDirectory.files ⟨[97]⟩ := by
  have hcurrent : inDirectory.files.currentPath = .ok ⟨[47, 100]⟩ := rfl
  have hdirectory : Pathname.text? ⟨[47, 100]⟩ = some "/d" := Pathname.text?_ofText "/d"
  have htext : Pathname.text? ⟨[97]⟩ = some "a" := Pathname.text?_ofText "a"
  have hvalid : Pathname.Valid ⟨[97]⟩ := ⟨"a", htext, by decide, by decide⟩
  have hblank : ¬ Pathname.Blank ⟨[97]⟩ := by
    rintro ⟨text, hsame, hblank⟩
    rw [htext] at hsame
    cases hsame
    revert hblank
    decide
  have htakes : inDirectory.catalog.TakesTickets := ⟨rfl, nofun, by decide⟩
  obtain ⟨hmade, -, -, hputsOff, -⟩ := addTicket_iff_valid hcurrent
    (Option.isSome_iff_exists.mpr ⟨_, hdirectory⟩) (by decide) ⟨[97]⟩
  obtain ⟨ticket, hticket⟩ := hmade.mpr ⟨⟨hvalid, hblank⟩, htakes⟩
  exact ⟨ticket, hticket, (hputsOff ticket hticket).1⟩

/-- A world with one file of one byte, whose name is a blank. -/
def withBlankName : World :=
  { blank with files := ⟨[([32], .file (.data [0] 1) 0)], []⟩ }

theorem admit_withBlankName : withBlankName.admit ⟨[32]⟩ = .ok (.ok ⟨1, 0⟩) := by
  have hname : PlainName [32] := by decide
  have hchild : withBlankName.files.root.child? [32] = some (.file (.data [0] 1) 0) := rfl
  have hcurrent : withBlankName.files.directory? withBlankName.files.current =
      some withBlankName.files.root := rfl
  have hpath : Pathname.bytes ⟨[32]⟩ ≠ [] := List.cons_ne_nil _ _
  have hsame : withBlankName.files.locate (.ofRoot [32]) true =
      withBlankName.files.locate ⟨[32]⟩ true :=
    FileSystem.locate_inside hcurrent (by decide) hpath (by decide) true
  have hfound := hname.find_file hchild true
  rw [FileSystem.find, hsame, ← FileSystem.find] at hfound
  unfold World.admit
  rw [if_neg (by decide), FileSystem.open?, hfound]
  rfl

/-- A path name of one blank is refused as if it were empty, although it is valid and the file of
that name can be imported. -/
theorem addTicket_of_blank : Pathname.Valid ⟨[32]⟩ ∧
    withBlankName.call (.addTicket ⟨[32]⟩) =
      (withBlankName, .ticketed (.error (.badPath .blank))) ∧
    ∃ receipt, (Importer.clicking.run (.direct ⟨[32]⟩ ⟨true, true⟩ none) withBlankName).2 =
      .ok (.committed receipt) ∧ receipt.path = ⟨[32]⟩ := by
  have htext : Pathname.text? ⟨[32]⟩ = some " " := Pathname.text?_ofText " "
  refine ⟨⟨" ", htext, by decide, by decide⟩, rfl, ?_⟩
  have hadmission : withBlankName.admit
      (ImportJob.direct ⟨[32]⟩ ⟨true, true⟩ none).path = .ok (.ok ⟨1, 0⟩) := admit_withBlankName
  have hdecode : Importer.clicking.decode withBlankName
      (ImportJob.direct ⟨[32]⟩ ⟨true, true⟩ none).path ⟨1, 0⟩ =
        .ok ⟨⟨1, 0⟩, .empty, Importer.click.stream.digest, none⟩ := rfl
  rw [Importer.run_eq, hadmission]
  simp only [hdecode]
  exact ⟨_, rfl, rfl⟩

end World

end AudioCatalog
