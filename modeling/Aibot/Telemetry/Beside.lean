/-
Readers beside the writers: in every interleaving with the calls of the recorders of an epoch, no reader
raises, and what a reader has yielded are records that are stored, each one once.
-/
import Aibot.Telemetry.Accepted

namespace Aibot.Telemetry

open Store (JsonDocument Codec)

/-- The record under a path. -/
def Reads (d : StreamDir) (path : String) (document : JsonDocument) : Prop :=
  ∃ tokens, d.records path = some tokens ∧ Codec.load tokens = some document

/-- Records of a stream, each one at most once. -/
def Listing (d : StreamDir) (documents : List JsonDocument) : Prop :=
  ∃ paths, paths.Nodup ∧ List.Forall₂ (Reads d) paths documents

/-- Where a reader stands that has not raised. -/
def ReadPhase.Ok (d : StreamDir) (paths : List String) : ReadPhase → Prop
  | .scanning => True
  | .checking path document => path ∉ paths ∧ Reads d path document
  | .raised _ => False

structure ReaderOk (d : StreamDir) (reader : Reader) : Prop where
  paths : reader.paths.Nodup
  yielded : List.Forall₂ (Reads d) reader.paths reader.yielded
  phase : reader.phase.Ok d reader.paths

section Step

variable {pf : Platform} {dt : Datetimes} {w : World pf dt} {d d' : StreamDir} {reader reader' : Reader}

theorem readerOk_start (d : StreamDir) (kind : RowKind) : ReaderOk d (.start kind) := ⟨List.nodup_nil, .nil, trivial⟩

/-- What is stored later leaves a reader as it is. -/
theorem ReaderOk.mono (h : ReaderOk d reader)
    (hrecords : ∀ path tokens, d.records path = some tokens → d'.records path = some tokens) : ReaderOk d' reader := by
  have hreads : ∀ {path : String} {document : JsonDocument}, Reads d path document → Reads d' path document :=
    fun ⟨tokens, hrecord, hload⟩ => ⟨tokens, hrecords _ _ hrecord, hload⟩
  refine ⟨h.paths, h.yielded.imp fun _ _ => hreads, ?_⟩
  have hphase := h.phase
  cases hcase : reader.phase with
  | scanning => trivial
  | checking path document =>
    rw [hcase] at hphase
    exact ⟨hphase.1, hreads hphase.2⟩
  | raised message =>
    rw [hcase] at hphase
    exact hphase

theorem ReaderOk.yields (h : ReaderOk d reader) {path : String} {document : JsonDocument}
    (hphase : reader.phase = .checking path document) : ReaderOk d (reader.yields path document) := by
  have hok := h.phase
  rw [hphase] at hok
  exact ⟨List.nodup_cons.2 ⟨hok.1, h.paths⟩, .cons hok.2 h.yielded, trivial⟩

/-- A stored record is accepted, and what is read is the record. -/
theorem stored_accepted (hdoc : Documented pf dt) {kind : RowKind} (hd : DirInv pf kind d)
    (hs : DirSourced pf (Handed w) kind d) {path : String} {tokens : List Json.Token}
    (h : d.records path = some tokens) : ∃ document : JsonDocument, Codec.load tokens = some document ∧
      readRecord pf kind w.epoch.telemetryEpochId path tokens = .ok document ∧
      checkIdentityIndex pf kind ((keyOf kind document).bind fun key => d.index (pf.keyHash key)) path document =
        .ok () := by
  obtain ⟨document, hash, reserving, hash', hlinked⟩ := exists_linked hd hs h
  refine ⟨sealed document hash, ?_, hlinked.read hdoc, hlinked.check hdoc⟩
  rw [hlinked.stored]
  exact load_sealed hlinked.digest

theorem stepReader_ok (hdoc : Documented pf dt) (hd : DirInv pf reader.kind d)
    (hs : DirSourced pf (Handed w) reader.kind d) (h : ReaderOk d reader) {event : ReadEvent}
    (hstep : stepReader pf w.epoch.telemetryEpochId d reader event = some reader') :
    ReaderOk d reader' ∧ reader'.kind = reader.kind := by
  cases event with
  | opens path =>
    simp only [stepReader] at hstep
    split at hstep
    · rename_i tokens _ hrecord
      split_ifs at hstep with hvisited
      obtain ⟨document, hload, hread, -⟩ := stored_accepted hdoc hd hs hrecord
      rw [hread] at hstep
      obtain rfl := Option.some.inj hstep
      exact ⟨⟨h.paths, h.yielded, hvisited, tokens, hrecord, hload⟩, rfl⟩
    · cases hstep
  | checks metadata =>
    simp only [stepReader] at hstep
    split at hstep
    · rename_i path document hphase
      split_ifs at hstep with hmetadata
      · -- the record is there, so is its index entry
        have hok := h.phase
        rw [hphase] at hok
        obtain ⟨-, tokens, hrecord, hload⟩ := hok
        obtain ⟨document', hload', -, hcheck⟩ := stored_accepted hdoc hd hs hrecord
        obtain rfl := Option.some.inj (hload.symm.trans hload')
        rw [hcheck] at hstep
        obtain rfl := Option.some.inj hstep
        exact ⟨h.yields hphase, rfl⟩
      · obtain rfl := Option.some.inj hstep
        exact ⟨h.yields hphase, rfl⟩
    · cases hstep

end Step

section Run

variable {pf : Platform} {dt : Datetimes} {w : World pf dt} {s s' : Watched}

/-- The writers persist what the recorders of the epoch are handed. -/
def FromWorld (w : World pf dt) (s : Watched) : WatchedAct → Prop
  | .writes act => FromSource (Handed w) s.streams act
  | .enters _ _ | .reads _ _ => True

structure WatchedInv (w : World pf dt) (s : Watched) : Prop where
  streams : StreamsInv pf s.streams
  sourced : StreamsSourced pf (Handed w) s.streams
  readers : ∀ i reader, s.readers i = some reader → ReaderOk (s.streams.dirs reader.kind) reader

theorem watchedInv_start : WatchedInv w .start := ⟨streamsInv_start, streamsSourced_start, fun _ _ h => by cases h⟩

theorem watchedInv_step (hdoc : Documented pf dt) (hs : WatchedInv w s) {act : WatchedAct} (hact : FromWorld w s act)
    (h : s.step pf w.epoch.telemetryEpochId act = some s') : WatchedInv w s' := by
  cases act with
  | writes act =>
    obtain ⟨streams, hstreams, rfl⟩ := Option.map_eq_some_iff.1 h
    refine ⟨streamsInv_step hs.streams hstreams, streamsSourced_step hs.streams hs.sourced hact hstreams,
      fun i reader hreader => ?_⟩
    obtain ⟨c, hkept⟩ := streams_kept hs.streams hstreams reader.kind
    exact (hs.readers i reader hreader).mono hkept.records
  | enters i kind =>
    simp only [Watched.step] at h
    split at h
    · obtain rfl := Option.some.inj h
      refine ⟨hs.streams, hs.sourced, fun j reader hreader => ?_⟩
      rcases update_eq_some hreader with ⟨rfl, heq⟩ | ⟨-, hreader⟩
      · obtain rfl := Option.some.inj heq
        exact readerOk_start _ kind
      · exact hs.readers j reader hreader
    · cases h
  | reads i event =>
    obtain ⟨reader, hreader, h⟩ := Option.bind_eq_some_iff.1 h
    obtain ⟨reader', hstep, rfl⟩ := Option.map_eq_some_iff.1 h
    obtain ⟨hok, hkind⟩ := stepReader_ok hdoc (hs.streams.dir _) (hs.sourced.dir _) (hs.readers i reader hreader) hstep
    refine ⟨hs.streams, hs.sourced, fun j other hother => ?_⟩
    rcases update_eq_some hother with ⟨rfl, heq⟩ | ⟨-, hother⟩
    · obtain rfl := Option.some.inj heq
      rw [hkind]
      exact hok
    · exact hs.readers j other hother

theorem watchedInv_run (hdoc : Documented pf dt) {acts : List WatchedAct}
    (h : Run (Watched.step pf w.epoch.telemetryEpochId) (FromWorld w) .start acts s) : WatchedInv w s :=
  h.invariant (fun _ _ _ hs hact h => watchedInv_step hdoc hs hact h) watchedInv_start

/-- What a reader has yielded is a listing of its stream. -/
theorem ReaderOk.listing {d : StreamDir} {reader : Reader} (h : ReaderOk d reader) : Listing d reader.yielded :=
  ⟨reader.paths, h.paths, h.yielded⟩

theorem ReaderOk.not_raised {d : StreamDir} {reader : Reader} (h : ReaderOk d reader) (message : String) :
    reader.phase ≠ .raised message := by
  intro hraised
  have hphase := h.phase
  rw [hraised] at hphase
  exact hphase

end Run

end Aibot.Telemetry
