import AudioCatalog.Proofs.Catalog.Candidates
import AudioCatalog.Proofs.Import.Turns

/-!
# Two imports, one after the other

Two imports run one after the other if one of them is finished before the other looks into the
catalog.  `Parallel.Order` is what two imports side by side come to, in whatever order they
have looked and committed; it is one after the other if the second has seen what the first
wrote.
-/

namespace AudioCatalog

open Contest (State)

/-! ## Turns and ledgers -/

namespace ImportJob.Turn

variable {job : ImportJob} {decoded : Decoded} {seen before after : Catalog} {now : Timestamp}
  {receipt : Receipt} {ledger looked : List Identity}

/-- What a turn tells of the catalog that it is written to. -/
theorem openFor (hturn : job.Turn decoded seen before now receipt after) :
    before.OpenFor job.ticket ∧ job.path.text?.isSome ∧
      before.sources.greatestId < Table.idLimit ∧
      (receipt.effect = .inserted → before.identities.greatestId < Table.idLimit) := by
  obtain ⟨world, resolution, id, effect, rfl, rfl, hidentified, hwritten, rfl⟩ := hturn
  obtain ⟨hopen, htext, hroom, hidentities, -⟩ := openFor_of_write hwritten
  exact ⟨hopen, htext, hroom, hidentities⟩

/-- What a turn leaves as it is, and how many numbers it uses up. -/
theorem frame (hturn : job.Turn decoded seen before now receipt after) (hsound : before.Sound) :
    after.Sound ∧ after.access = before.access ∧ after.locked = false ∧
      (∀ id, (after.tickets.row? id).isSome = (before.tickets.row? id).isSome) ∧
      after.sources.greatestId = before.sources.greatestId + 1 ∧
      after.identities.greatestId =
        before.identities.greatestId + if receipt.effect = .inserted then 1 else 0 := by
  obtain ⟨world, resolution, id, effect, rfl, rfl, hidentified, hwritten, rfl⟩ := hturn
  obtain ⟨⟨hunlocked, -, -⟩, -, -, -, _, _, _, hcatalog⟩ := openFor_of_write hwritten
  obtain ⟨haccess, htickets⟩ := frame_of_write hsound hwritten
  have hafter := hsound.write (write_of_write hwritten)
  obtain ⟨ledger, hkeeps, -, -⟩ := hsound
  obtain ⟨hsources, hidentities⟩ := greatestId_write hkeeps hwritten
  refine ⟨hafter, haccess, ?_, htickets, hsources, hidentities⟩
  rw [hcatalog]
  exact hunlocked

/-- A turn decides by the ledger of the catalog that it has seen. -/
theorem verdict_eq (hturn : job.Turn decoded seen before now receipt after)
    (hlooked : seen.Keeps looked) :
    seen.access ≠ .blind ∧ receipt.verdict =
      (resolutionIn looked decoded.digest decoded.key job.handling.careful).verdict := by
  obtain ⟨world, resolution, id, effect, rfl, rfl, hidentified, hwritten, rfl⟩ := hturn
  obtain ⟨hvisible, rfl⟩ := hlooked.eq_resolutionIn_of_identify hidentified
  exact ⟨hvisible, rfl⟩

/-- A turn adds an identity under the next number if the verdict names none, and else extends
the one that it names. -/
theorem cases (hturn : job.Turn decoded seen before now receipt after)
    (hkeeps : before.Keeps ledger) :
    let deposit := job.deposit decoded now
    receipt.effect = .inserted ∧ receipt.verdict.matched = none ∧
        (∀ identity ∈ ledger, identity.digest ≠ decoded.digest) ∧
        after.Keeps (ledger ++
          [deposit.draft.entry ⟨before.identities.greatestId + 1⟩ [deposit.source] now]) ∨
      receipt.effect = .attached ∧ ∃ id, receipt.verdict.matched = some id ∧
        (∃ identity ∈ ledger, identity.id = id) ∧
        after.Keeps (extendEntry ledger id deposit.source (some decoded.metadata)) := by
  obtain ⟨world, resolution, id, effect, rfl, rfl, hidentified, hwritten, rfl⟩ := hturn
  obtain ⟨-, ⟨rfl, hmatched, hnumber, hnew, hkept⟩ | ⟨rfl, hmatched, hid, hkept⟩⟩ :=
    write_cases hkeeps hwritten
  · obtain rfl : id = ⟨world.catalog.identities.greatestId + 1⟩ := congrArg IdentityId.mk hnumber
    exact .inl ⟨rfl, hmatched, hnew, hkept⟩
  · exact .inr ⟨rfl, id, hmatched, hid, hkept⟩

/-- A turn is the same whichever catalog was seen, if the import decides the same. -/
theorem of_seen (hturn : job.Turn decoded seen before now receipt after)
    (hlooked : seen.Keeps looked) {other : Catalog} (hkeeps : other.Keeps ledger)
    (haccess : other.access = seen.access)
    (hsame : resolutionIn ledger decoded.digest decoded.key job.handling.careful =
      resolutionIn looked decoded.digest decoded.key job.handling.careful) :
    job.Turn decoded other before now receipt after := by
  obtain ⟨world, resolution, id, effect, rfl, rfl, hidentified, hwritten, rfl⟩ := hturn
  obtain ⟨hvisible, rfl⟩ := hlooked.eq_resolutionIn_of_identify hidentified
  refine ⟨world, _, id, effect, rfl, rfl, ?_, hwritten, rfl⟩
  rw [hkeeps.identify_eq_resolutionIn, Catalog.demandVisible, if_neg (haccess ▸ hvisible), hsame]
  rfl

end ImportJob.Turn

/-- An import takes its turn where the catalog is open and has numbers left. -/
theorem ImportJob.exists_turn {job : ImportJob} {decoded : Decoded} {catalog : Catalog}
    (hsound : catalog.Sound) (hvisible : catalog.access ≠ .blind) (htext : job.path.text?.isSome)
    (hopen : catalog.OpenFor job.ticket)
    (hidentities : catalog.identities.greatestId < Table.idLimit)
    (hsources : catalog.sources.greatestId < Table.idLimit) (world : World) (now : Timestamp) :
    ∃ receipt after, job.Turn decoded catalog catalog now receipt after := by
  have hidentified : ∃ resolution, identify decoded.digest decoded.key catalog.lookup
      job.handling.careful = .ok resolution := by
    obtain ⟨ledger, hkeeps, -, -⟩ := hsound
    rw [hkeeps.identify_eq_resolutionIn, Catalog.demandVisible, if_neg hvisible]
    exact ⟨_, rfl⟩
  obtain ⟨resolution, hidentified⟩ := hidentified
  have hstands := hsound.standsIn_of_identify hidentified
  let writer : World := { world with catalog := catalog, now := now }
  have hwritten : ∃ written, job.write writer decoded resolution = .ok written :=
    exists_write htext hstands hopen hidentities hsources
  obtain ⟨⟨id, effect, after⟩, hwritten⟩ := hwritten
  exact ⟨_, after, writer, resolution, id, effect, rfl, rfl, hidentified, hwritten, rfl⟩

/-! ## Two imports -/

namespace Parallel

variable {κ : Type}

/-- Two imports that have decoded their files. -/
def ready (decoded : Bool → Decoded) (world : World) : State Bool :=
  ⟨world, fun second => .fingerprinted (decoded second)⟩

/-- Two imports take their turns, each at its own time: the leader sees the catalog as it was at
the start, and the other one sees some catalog and writes to the one that the leader has left. -/
structure Order (parallel : Parallel Bool κ) (decoded : Bool → Decoded) (clock : Bool → Timestamp)
    (leader : Bool) (start seen : Catalog) (written : Bool → Receipt)
    (between ending : Catalog) : Prop where
  first : (parallel.job leader).Turn (decoded leader) start start (clock leader) (written leader)
    between
  second : (parallel.job !leader).Turn (decoded !leader) seen between (clock !leader)
    (written !leader) ending

/-- Two imports run one after the other, and both are committed. -/
def Serial (parallel : Parallel Bool κ) (decoded : Bool → Decoded) (world : World) (leader : Bool)
    (receipt : Bool → Receipt) (last : State Bool) : Prop :=
  ∃ (commits more : List (Commit Bool)) (middle : State Bool),
    parallel.Run World.LeftAlone (ready decoded world) commits middle ∧
    middle.phase leader = .finished (.ok (.committed (receipt leader))) ∧
    middle.phase (!leader) = .fingerprinted (decoded !leader) ∧
    parallel.Run World.LeftAlone middle more last ∧
    last.phase (!leader) = .finished (.ok (.committed (receipt !leader)))

/-- Two that are different are one and the other. -/
theorem eq_pair_of_nodup {entrants : List Bool} (hdistinct : entrants.Nodup)
    (hboth : ∀ second, second ∈ entrants) : ∃ leader, entrants = [leader, !leader] := by
  have hperm : entrants.Perm [false, true] := by
    refine (List.perm_ext_iff_of_nodup hdistinct (by decide)).mpr fun second => ?_
    cases second <;> simp [hboth]
  obtain ⟨leader, other, rfl⟩ := List.length_eq_two.mp hperm.length_eq
  have hne : other ≠ leader := by
    rintro rfl
    exact absurd hdistinct (by simp)
  exact ⟨leader, by rw [Bool.eq_not.mpr hne]⟩

theorem eq_singleton_of_nodup {α : Type} {xs : List α} {x : α} (hdistinct : xs.Nodup)
    (hmem : x ∈ xs) (hall : ∀ y ∈ xs, y = x) : xs = [x] := by
  have hrepeat := List.eq_replicate_of_mem hall
  rw [hrepeat] at hdistinct hmem
  have hlength : xs.length = 1 := by
    have hle := List.nodup_replicate.mp hdistinct
    have hpos := (List.mem_replicate.mp hmem).1
    omega
  rw [hrepeat, hlength]
  rfl

variable {ι : Type} {parallel : Parallel ι κ} {start : Catalog} {commits : List (Commit ι)}
  {catalogs : List Catalog}

theorem Trace.eq_of_nil (htrace : parallel.Trace start [] catalogs) : catalogs = [start] := by
  generalize hcommits : ([] : List (Commit ι)) = commits at htrace
  cases htrace with
  | start => rfl
  | commit => simp at hcommits

/-- The last turn that a trace tells of. -/
theorem Trace.exists_turn {commit : Commit ι}
    (htrace : parallel.Trace start (commits ++ [commit]) catalogs) :
    ∃ seen before after earlier, catalogs = after :: before :: earlier ∧
      parallel.Trace start commits (before :: earlier) ∧ seen ∈ before :: earlier ∧
      (parallel.job commit.entrant).Turn commit.decoded seen before commit.now commit.receipt
        after := by
  generalize hcommits : commits ++ [commit] = all at htrace
  cases htrace with
  | start => simp at hcommits
  | commit trace looked last turn =>
      obtain ⟨rfl, hlast⟩ := List.append_inj' hcommits rfl
      obtain rfl := (List.cons.inj hlast).1
      exact ⟨_, _, _, _, rfl, trace, looked, turn⟩

/-- A single turn sees the catalog as it was at the start, and writes to it. -/
theorem Trace.turn_of_singleton {commit : Commit ι} {ending : Catalog} {earlier : List Catalog}
    (htrace : parallel.Trace start [commit] (ending :: earlier)) :
    earlier = [start] ∧ (parallel.job commit.entrant).Turn commit.decoded start start commit.now
      commit.receipt ending := by
  have htrace' : parallel.Trace start ([] ++ [commit]) (ending :: earlier) := htrace
  obtain ⟨seen, before, after, rest, hcatalogs, hbefore, hseen, hturn⟩ := htrace'.exists_turn
  obtain ⟨rfl, rfl⟩ := List.cons.inj hcatalogs
  obtain ⟨rfl, rfl⟩ := List.cons.inj hbefore.eq_of_nil
  obtain rfl := List.mem_singleton.mp hseen
  exact ⟨rfl, hturn⟩

/-- A run with the commits of one import only is told by the turn of that import. -/
theorem Recounts.exists_turn {first state : State ι} {earlier : List Catalog} {entrant : ι}
    {receipt : Receipt} {decoded : Decoded}
    (hrecounts : parallel.Recounts first commits earlier state)
    (hphase : first.phase entrant = .fingerprinted decoded)
    (honly : ∀ commit ∈ commits, commit.entrant = entrant)
    (hcommitted : state.phase entrant = .finished (.ok (.committed receipt))) :
    ∃ now written, (parallel.job entrant).Turn decoded first.world.catalog.unlocked
      first.world.catalog.unlocked now written state.world.catalog.unlocked ∧
      written.verdict = receipt.verdict ∧ written.effect = receipt.effect := by
  have htells := hrecounts.tells entrant
  rw [hcommitted] at htells
  obtain ⟨commit, hmem, hown, removed, remarks, hreceipt⟩ : ∃ commit ∈ commits,
      commit.entrant = entrant ∧ commit.Shows receipt := by
    rcases htells with hfinished | hshown
    · rw [hphase] at hfinished
      cases hfinished
    · exact hshown receipt rfl
  obtain rfl : commits = [commit] := by
    refine eq_singleton_of_nodup (List.Nodup.of_map _ hrecounts.distinct) hmem ?_
    intro other hother
    exact List.inj_on_of_nodup_map hrecounts.distinct hother hmem
      ((honly other hother).trans hown.symm)
  have hdecoded := hrecounts.decoded commit hmem
  rw [hown, hphase] at hdecoded
  obtain rfl : decoded = commit.decoded := Phase.fingerprinted.inj hdecoded
  obtain ⟨-, hturn⟩ := hrecounts.trace.turn_of_singleton
  rw [hown] at hturn
  exact ⟨_, _, hturn, by rw [hreceipt], by rw [hreceipt]⟩

/-! ## Runs and orders -/

variable {parallel : Parallel Bool κ} {decoded : Bool → Decoded} {world : World}
  {clock : Bool → Timestamp} {leader : Bool} {between ending : Catalog}
  {receipt written : Bool → Receipt} {commits : List (Commit Bool)} {last : State Bool}

theorem exists_pair {α : Type} (leader : Bool) (one two : α) :
    ∃ pair : Bool → α, pair leader = one ∧ pair (!leader) = two := by
  cases leader with
  | false => exact ⟨fun second => if second then two else one, rfl, rfl⟩
  | true => exact ⟨fun second => if second then one else two, rfl, rfl⟩

/-- One turn and the other make an order. -/
theorem exists_order_of_turns {start seen : Catalog} {now later : Timestamp} {one two : Receipt}
    (hfirst : (parallel.job leader).Turn (decoded leader) start start now one between)
    (hsecond : (parallel.job !leader).Turn (decoded !leader) seen between later two ending) :
    ∃ clock written, parallel.Order decoded clock leader start seen written between ending ∧
      clock leader = now ∧ clock (!leader) = later ∧ written leader = one ∧
        written (!leader) = two := by
  obtain ⟨clock, rfl, rfl⟩ := exists_pair leader now later
  obtain ⟨written, rfl, rfl⟩ := exists_pair leader one two
  exact ⟨clock, written, ⟨hfirst, hsecond⟩, rfl, rfl, rfl, rfl⟩

/-- Whatever order two imports side by side have looked and committed in, one of them has
committed first, and the other one has seen the catalog before or after that. -/
theorem Run.exists_order
    (hrun : parallel.Run World.LeftAlone (ready decoded world) commits last)
    (hcommitted : ∀ second, last.phase second = .finished (.ok (.committed (receipt second)))) :
    ∃ leader clock seen written between,
      parallel.Order decoded clock leader world.catalog.unlocked seen written between
        last.world.catalog.unlocked ∧
      (seen = world.catalog.unlocked ∨ seen = between) ∧
      ∀ second, (written second).verdict = (receipt second).verdict ∧
        (written second).effect = (receipt second).effect := by
  obtain ⟨earlier, hrecounts⟩ := hrun.recounts fun second => .inl ⟨_, rfl⟩
  have hshown : ∀ second, ∃ commit ∈ commits,
      commit.entrant = second ∧ commit.Shows (receipt second) := by
    intro second
    have htells := hrecounts.tells second
    rw [hcommitted] at htells
    rcases htells with hfinished | hshown
    · cases hfinished
    · exact hshown _ rfl
  obtain ⟨leader, hentrants⟩ := eq_pair_of_nodup hrecounts.distinct fun second => by
    obtain ⟨commit, hmem, hown, -⟩ := hshown second
    exact List.mem_map.mpr ⟨commit, hmem, hown⟩
  obtain ⟨one, two, rfl⟩ : ∃ one two, commits = [one, two] := by
    refine List.length_eq_two.mp ?_
    rw [← List.length_map (·.entrant), hentrants]
    rfl
  have hone : one.entrant = leader := (List.cons.inj hentrants).1
  have htwo : two.entrant = !leader := (List.cons.inj (List.cons.inj hentrants).2).1
  have hdecoded : ∀ commit ∈ [one, two], decoded commit.entrant = commit.decoded :=
    fun commit hmem => Phase.fingerprinted.inj (hrecounts.decoded commit hmem)
  have htrace : parallel.Trace world.catalog.unlocked ([one] ++ [two])
      (last.world.catalog.unlocked :: earlier) := hrecounts.trace
  obtain ⟨seen, between, ending, rest, hcatalogs, hbefore, hseen, hsecond⟩ := htrace.exists_turn
  obtain ⟨rfl, -⟩ := List.cons.inj hcatalogs
  obtain ⟨rfl, hfirst⟩ := hbefore.turn_of_singleton
  rw [← hdecoded one (by simp), hone] at hfirst
  rw [← hdecoded two (by simp), htwo] at hsecond
  obtain ⟨clock, written, horder, -, -, hwritten, hwritten'⟩ :=
    exists_order_of_turns hfirst hsecond
  refine ⟨leader, clock, seen, written, between, horder, by simpa [or_comm] using hseen,
    fun second => ?_⟩
  obtain ⟨commit, hmem, rfl, removed, remarks, hreceipt⟩ := hshown second
  rw [hreceipt]
  rcases List.mem_pair.mp hmem with rfl | rfl
  · rw [hone, hwritten]
    exact ⟨rfl, rfl⟩
  · rw [htwo, hwritten']
    exact ⟨rfl, rfl⟩

/-- Imports that run one after the other take their turns so. -/
theorem Serial.exists_order (hserial : parallel.Serial decoded world leader receipt last) :
    ∃ clock written between,
      parallel.Order decoded clock leader world.catalog.unlocked between written between
        last.world.catalog.unlocked ∧
      ∀ second, (written second).verdict = (receipt second).verdict := by
  obtain ⟨commits, more, middle, hbefore, hleader, hother, hafter, hcommitted⟩ := hserial
  obtain ⟨_, hfirst⟩ := hbefore.recounts fun second => .inl ⟨_, rfl⟩
  obtain ⟨_, hsecond⟩ := hafter.recounts fun second => by
    by_cases hsame : second = leader
    · exact .inr ⟨_, hsame ▸ hleader⟩
    · exact .inl ⟨_, (Bool.eq_not.mpr hsame) ▸ hother⟩
  have hnone : ∀ commit ∈ commits, commit.entrant = leader := by
    intro commit hmem
    have htells := hfirst.tells (!leader)
    rw [hother] at htells
    by_contra hsame
    exact htells.2 (List.mem_map.mpr ⟨commit, hmem, Bool.eq_not.mpr hsame⟩)
  have hmore : ∀ commit ∈ more, commit.entrant = !leader := by
    intro commit hmem
    have hdecoded := hsecond.decoded commit hmem
    refine Bool.eq_not.mpr fun hsame => ?_
    rw [hsame, hleader] at hdecoded
    cases hdecoded
  obtain ⟨now, one, hone, hshown, -⟩ := hfirst.exists_turn rfl hnone hleader
  obtain ⟨later, two, htwo, hshown', -⟩ := hsecond.exists_turn hother hmore hcommitted
  obtain ⟨clock, written, horder, -, -, hwritten, hwritten'⟩ := exists_order_of_turns hone htwo
  refine ⟨clock, written, _, horder, fun second => ?_⟩
  rcases Bool.eq_or_eq_not second leader with rfl | rfl
  · rw [hwritten, hshown]
  · rw [hwritten', hshown']

/-- Where nothing stops them, imports run one after the other. -/
theorem Order.exists_serial {world : World} (hunlocked : between.locked = false)
    (horder : parallel.Order decoded clock leader world.catalog.unlocked between written between
      ending) :
    ∃ receipt last, parallel.Serial decoded world leader receipt last ∧
      last.world.catalog = ending ∧
      ∀ second, (receipt second).verdict = (written second).verdict := by
  obtain ⟨hfirst, hsecond⟩ := horder
  have hne : (!leader) ≠ leader := Bool.not_ne_self leader
  have hstart : parallel.Run World.LeftAlone (ready decoded world) [] (ready decoded world) :=
    .start _
  obtain ⟨commits, middle, one, hbefore, rfl, removed, remarks, hone⟩ :=
    hstart.turn rfl hfirst fun _ _ _ _ _ _ hheld => nomatch hheld
  rw [← Catalog.unlocked_eq_self hunlocked] at hsecond
  let paused : State Bool :=
    (ready decoded world).enter leader middle (.finished (.ok (.committed one)))
  have hother : paused.phase (!leader) = .fingerprinted (decoded !leader) :=
    State.phase_enter_of_ne _ hne _ _
  have hfree : ∀ resolution,
      parallel.MayEnter paused (!leader) (.resolved (decoded !leader) resolution) := by
    intro resolution digest hdigest second hsecond held hheld
    rcases Bool.eq_or_eq_not second leader with rfl | rfl
    · rw [State.phase_enter_self] at hheld
      cases hheld
    · exact absurd rfl hsecond
  have hpaused : parallel.Run World.LeftAlone paused [] paused := .start _
  obtain ⟨more, final, two, hafter, hfinal, removed', remarks', htwo⟩ :=
    hpaused.turn hother hsecond hfree
  obtain ⟨receipt, hleader, hlater⟩ := exists_pair leader one two
  refine ⟨receipt, _, ⟨_, _, paused, hbefore, ?_, hother, hafter, ?_⟩, hfinal, fun second => ?_⟩
  · rw [State.phase_enter_self, hleader]
  · rw [State.phase_enter_self, hlater]
  · rcases Bool.eq_or_eq_not second leader with rfl | rfl
    · rw [hleader, hone]
    · rw [hlater, htwo]

end Parallel

end AudioCatalog
