import Mathlib.Logic.Function.Basic
import FileGateway.Path.Normal
import FileGateway.Proofs.Gateway.Realm

/-!
# Memory

The plainest archive: its stores keep their files in memory and never fail, except that a stream
whose file was removed cannot be completed. What is written to a stream reaches the file when the
stream is completed. A path leads to the file of its normal form.

Of every archive there is a stubborn one (`Archive.stubborn`), in which every deletion fails.
-/

namespace FileGateway

/-- Files, streams and sources in memory. Every stream that was opened for writing has its file and
what was written to it; of the source of a task there is what is left. -/
structure Memory where
  files : Site → Option Bytes
  streams : List (Site × Bytes)
  sources : TaskId → Bytes

namespace Memory

/-- No files. -/
def empty (sources : TaskId → Bytes) : Memory :=
  ⟨fun _ => none, [], sources⟩

/-- Puts a file in place, or takes it away. -/
def put (m : Memory) (σ : Site) (file : Option Bytes) : Memory :=
  { m with files := Function.update m.files σ file }

/-- Opens a stream to a file. -/
def openWrite (m : Memory) (σ : Site) (append : Bool) : StreamId × Memory :=
  let held := if append then (m.files σ).getD [] else []
  (m.streams.length, { m.put σ (some held) with streams := m.streams ++ [(σ, held)] })

/-- Writes to a stream. -/
def write (m : Memory) (s : StreamId) (piece : Bytes) : Memory :=
  { m with streams := m.streams.modify s fun stream => (stream.1, stream.2 ++ piece) }

/-- Completes a stream. -/
def finish (m : Memory) (s : StreamId) : Result Unit × Memory :=
  match m.streams[s]? with
  | some (σ, held) =>
    if (m.files σ).isSome then (.ok (), m.put σ (some held))
    else (.error (.plain "the file is gone"), m)
  | none => (.error (.plain "no such stream"), m)

/-- Takes the next piece of a source, which has at most four bytes. -/
def pull (m : Memory) (id : TaskId) : Bytes × Memory :=
  ((m.sources id).take 4,
    { m with sources := Function.update m.sources id ((m.sources id).drop 4) })

/-- The file that a path leads to. -/
def locate (path : Path) : Result FileRef :=
  match path.normal with
  | .ok place => .ok ⟨place⟩
  | .error fault => .error (.plain fault.message)

/-- The answer of a store to a call. -/
def call (m : Memory) (b : Backend) : (call : StoreCall) → call.Answer × Memory
  | .resolve path _ => (locate path, m)
  | .probe file => (.ok (m.files (b.site file)).isSome, m)
  | .createFile file => (.ok (), m.put (b.site file) (some []))
  | .createExclusive file =>
    if (m.files (b.site file)).isSome then (.ok false, m)
    else (.ok true, m.put (b.site file) (some []))
  | .delete file => (.ok (m.files (b.site file)).isSome, m.put (b.site file) none)
  | .openRead _ => (.error (.plain "write only"), m)
  | .openWrite file append =>
    (.ok (m.openWrite (b.site file) append).1, (m.openWrite (b.site file) append).2)
  | .read _ => (.error (.plain "write only"), m)
  | .write s piece => (.ok (), m.write s piece)
  | .finish s => m.finish s
  | .close => (.ok (), m)

/-- The answer to a request. -/
def answer (id : TaskId) (m : Memory) : (request : Request) → request.Answer × Memory
  | .store b call => m.call b call
  | .guard _ => ((), m)
  | .slot => ((), m)
  | .pull => (.ok (m.pull id).1, (m.pull id).2)
  | .push _ => (.ok (), m)
  | .flush => (.ok (), m)

/-! ## The laws -/

theorem files_put (m : Memory) (σ τ : Site) (file : Option Bytes) :
    (m.put σ file).files τ = if τ = σ then file else m.files τ :=
  Function.update_apply m.files σ file τ

theorem files_put_ne {m : Memory} {σ τ : Site} {file : Option Bytes} (h : σ ≠ τ) :
    (m.put σ file).files τ = m.files τ := by
  rw [files_put, if_neg fun hτ => h hτ.symm]

theorem isSome_put {m : Memory} {σ τ : Site} {held : Bytes} (h : (m.files τ).isSome = true) :
    ((m.put σ (some held)).files τ).isSome = true := by
  rw [files_put]
  split
  · rfl
  · exact h

theorem isSome_finish (m : Memory) (s : StreamId) (τ : Site) :
    ((m.finish s).2.files τ).isSome = (m.files τ).isSome := by
  unfold finish
  cases m.streams[s]? with
  | none => rfl
  | some stream =>
    obtain ⟨σ, held⟩ := stream
    simp only
    split
    · next hfile =>
      rw [files_put]
      split
      · next hτ => rw [hτ, hfile]; rfl
      · rfl
    · rfl

theorem altered_ne {b : Backend} {call : StoreCall} {file : FileRef} {σ : Site}
    (h : (Request.store b call).altered? ≠ some σ) (hfile : call.altered? = some file) :
    b.site file ≠ σ := by
  intro hσ
  exact h (by simp [Request.altered?, hfile, hσ])

/-- Memory as a realm. -/
def realm : Realm Memory where
  begin _ _ m := (0, m)
  answer id request m := m.answer id request
  present m σ := (m.files σ).isSome
  untouched := by
    intro i r m σ h
    cases r with
    | store b call =>
      cases call with
      | createFile file => exact congrArg Option.isSome (files_put_ne (altered_ne h rfl))
      | createExclusive file =>
        simp only [answer, call]
        split
        · rfl
        · exact congrArg Option.isSome (files_put_ne (altered_ne h rfl))
      | delete file => exact congrArg Option.isSome (files_put_ne (altered_ne h rfl))
      | openWrite file append => exact congrArg Option.isSome (files_put_ne (altered_ne h rfl))
      | finish s => exact m.isSome_finish s σ
      | _ => rfl
    | _ => rfl
  kept := by
    intro i r m σ h hm
    -- only a deletion takes a file away
    cases r with
    | store b call =>
      cases call with
      | createFile file => exact isSome_put hm
      | createExclusive file =>
        simp only [answer, call]
        split
        · exact hm
        · exact isSome_put hm
      | delete file =>
        have hne : b.site file ≠ σ := fun hσ => h (congrArg some hσ)
        exact (congrArg Option.isSome (files_put_ne hne)).trans hm
      | openWrite file append => exact isSome_put hm
      | finish s => exact (m.isSome_finish s σ).trans hm
      | _ => exact hm
    | _ => exact hm
  probed := by
    intro i b file m found h
    cases h
    rfl
  vacant := by
    intro i b file m h
    simp only [answer, call] at h
    split at h
    · cases h
    · next hm => exact Bool.eq_false_iff.2 hm
  createdExclusively := by
    intro i b file m h
    -- a file that was there before would have been told of
    simp only [answer, call] at h ⊢
    split at h
    · cases h
    · next hm =>
      rw [if_neg hm, files_put, if_pos rfl]
      rfl
  created := by
    intro i b file m h
    simp [answer, call, files_put]
  undeleted := by
    intro i b file m f h
    cases h

/-! ## Streams -/

/-- The site of the file that a stream writes to. -/
def site? (m : Memory) (s : StreamId) : Option Site :=
  m.streams[s]?.map Prod.fst

/-- What was written to a stream. -/
def draft? (m : Memory) (s : StreamId) : Option Bytes :=
  m.streams[s]?.map Prod.snd

theorem streams_openWrite (m : Memory) (σ : Site) (append : Bool) {s : StreamId}
    (h : s < m.streams.length) : (m.openWrite σ append).2.streams[s]? = m.streams[s]? :=
  List.getElem?_append_left h

theorem streams_write (m : Memory) (s n : StreamId) (piece : Bytes) :
    (m.write s piece).streams[n]? =
      if s = n then m.streams[n]?.map fun stream => (stream.1, stream.2 ++ piece)
      else m.streams[n]? := by
  simp only [write, List.getElem?_modify]
  split
  · rfl
  · simp

theorem streams_finish (m : Memory) (s : StreamId) : (m.finish s).2.streams = m.streams := by
  unfold finish
  split
  · split <;> rfl
  · rfl

theorem lt_of_site {m : Memory} {s : StreamId} {σ : Site} (h : m.site? s = some σ) :
    s < m.streams.length := by
  obtain ⟨stream, hstream, -⟩ := Option.map_eq_some_iff.1 h
  exact (List.getElem?_eq_some_iff.1 hstream).1

/-- No call changes where a stream leads. -/
theorem site?_call (m : Memory) (b : Backend) (c : StoreCall) {s : StreamId} {σ : Site}
    (h : m.site? s = some σ) : (m.call b c).2.site? s = some σ := by
  cases c with
  | createExclusive file =>
    simp only [call]
    split <;> exact h
  | openWrite file append =>
    have hsame := m.streams_openWrite (b.site file) append (lt_of_site h)
    exact (congrArg (Option.map Prod.fst) hsame).trans h
  | write n piece =>
    have hsame := m.streams_write n s piece
    have hsite : (m.write n piece).site? s = m.site? s := by
      rw [site?, hsame, site?]
      split
      · cases m.streams[s]? <;> rfl
      · rfl
    exact hsite.trans h
  | finish n =>
    have hsite : (m.finish n).2.site? s = m.site? s := by rw [site?, streams_finish, site?]
    exact hsite.trans h
  | _ => exact h

/-- What the file at a site holds. -/
def content (m : Memory) (σ : Site) : Bytes :=
  (m.files σ).getD []

/-- A call that touches another file leaves a file and the drafts of its streams alone. -/
theorem apart_call (m : Memory) (b : Backend) (c : StoreCall) {σ : Site}
    (h : (Request.store b c).touched? m.site? ≠ some σ) :
    (m.call b c).2.content σ = m.content σ ∧
      ∀ s, m.site? s = some σ → (m.call b c).2.draft? s = m.draft? s := by
  have hput : ∀ {file : FileRef} {held : Option Bytes}, b.site file ≠ σ →
      (m.put (b.site file) held).content σ = m.content σ := by
    intro file held hne
    exact congrArg (Option.getD · []) (files_put_ne hne)
  cases c with
  | createFile file => exact ⟨hput fun heq => h (congrArg some heq), fun _ _ => rfl⟩
  | createExclusive file =>
    simp only [call]
    split
    · exact ⟨rfl, fun _ _ => rfl⟩
    · exact ⟨hput fun heq => h (congrArg some heq), fun _ _ => rfl⟩
  | delete file => exact ⟨hput fun heq => h (congrArg some heq), fun _ _ => rfl⟩
  | openWrite file append =>
    refine ⟨hput fun heq => h (congrArg some heq), fun s hs => ?_⟩
    exact congrArg (Option.map Prod.snd) (m.streams_openWrite (b.site file) append (lt_of_site hs))
  | write n piece =>
    refine ⟨rfl, fun s hs => ?_⟩
    -- the stream that is written to leads to another file, so it is another stream
    have hne : n ≠ s := by
      intro heq
      rw [← heq] at hs
      exact h hs
    have hsame := m.streams_write n s piece
    rw [if_neg hne] at hsame
    exact congrArg (Option.map Prod.snd) hsame
  | finish n =>
    refine ⟨?_, fun s _ => congrArg (fun streams => streams[s]?.map Prod.snd) (m.streams_finish n)⟩
    have hsite : m.site? n ≠ some σ := h
    simp only [call, finish]
    cases hn : m.streams[n]? with
    | none => rfl
    | some stream =>
      obtain ⟨τ, held⟩ := stream
      have hne : τ ≠ σ := by
        intro heq
        exact hsite (by simp [site?, hn, heq])
      simp only
      split
      · exact congrArg (Option.getD · []) (files_put_ne hne)
      · rfl
  | _ => exact ⟨rfl, fun _ _ => rfl⟩

theorem sources_call (m : Memory) (b : Backend) (c : StoreCall) :
    (m.call b c).2.sources = m.sources := by
  cases c with
  | createExclusive file =>
    simp only [call]
    split <;> rfl
  | finish n =>
    simp only [call, finish]
    split
    · split <;> rfl
    · rfl
  | _ => rfl

/-- Memory as an archive. -/
def archive : Archive Memory where
  toRealm := realm
  locate _ path :=
    match path.normal with
    | .ok place => ⟨place⟩
    | .error _ => ⟨path⟩
  content := content
  site? := site?
  draft? := draft?
  source m id := m.sources id
  located := by
    intro i b path options m file h
    have hlocate : Memory.locate path = .ok file := h
    unfold Memory.locate at hlocate
    split at hlocate
    · next place hplace =>
      cases hlocate
      rfl
    · cases hlocate
  opened := by
    intro i b file append m s h
    have hs : m.streams.length = s := Except.ok.inj h
    subst hs
    -- the new stream is the last one
    refine ⟨by simp [site?], ?_, ?_⟩
    · simp [realm, answer, call, openWrite, site?]
    · simp [realm, answer, call, openWrite, draft?, content]
  written := by
    intro i b s piece m draft h hdraft
    have hsame := m.streams_write s s piece
    rw [if_pos rfl] at hsame
    obtain ⟨stream, hstream, rfl⟩ := Option.map_eq_some_iff.1 hdraft
    rw [hstream] at hsame
    exact congrArg (Option.map Prod.snd) hsame
  finished := by
    intro i b s m σ draft h hsite hdraft
    obtain ⟨stream, hstream, rfl⟩ := Option.map_eq_some_iff.1 hsite
    rw [draft?, hstream] at hdraft
    cases hdraft
    have hfinish : (m.finish s).1 = .ok () := h
    -- a stream whose file is gone would not have been completed
    have hafter : (m.finish s).2.content stream.1 = stream.2 := by
      unfold finish at hfinish ⊢
      rw [hstream] at hfinish ⊢
      simp only at hfinish ⊢
      split
      · simp [content, files_put]
      · next hgone =>
        rw [if_neg hgone] at hfinish
        cases hfinish
    exact hafter
  pulled := by
    intro i m piece h
    have hpiece : (m.sources i).take 4 = piece := Except.ok.inj h
    have hrest : (m.pull i).2.sources i = (m.sources i).drop 4 := Function.update_self _ _ _
    refine ⟨?_, fun hnil => ?_⟩
    · rw [← hpiece]
      exact ((List.take_append_drop 4 _).symm.trans (congrArg _ hrest.symm))
    · -- nothing is taken only if nothing is left
      rw [hnil] at hpiece
      refine hrest.trans ?_
      rw [List.take_eq_nil_iff] at hpiece
      rcases hpiece with hfour | hempty
      · cases hfour
      · rw [hempty]
        rfl
  steady := by
    intro i r m s σ h
    cases r with
    | store b c => exact m.site?_call b c h
    | _ => exact h
  apart := by
    intro i r m σ h
    cases r with
    | store b c => exact m.apart_call b c h
    | _ => exact ⟨rfl, fun _ _ => rfl⟩
  unpulled := by
    intro i j r m h
    cases r with
    | store b c => exact congrFun (m.sources_call b c) j
    | pull =>
      rcases h with hne | hne
      · exact absurd rfl hne
      · exact Function.update_of_ne hne _ _
    | _ => rfl

theorem reliable_archive : archive.Reliable where
  deleted := by
    intro i b file m existed h
    exact congrArg Option.isSome ((files_put m (b.site file) (b.site file) none).trans (if_pos rfl))
  uncreated := by
    intro i b file m f h
    cases h
  beaten := by
    intro i b file m h hvacant
    -- where there is no file, an exclusive creation succeeds
    have hnone : ¬ (m.files (b.site file)).isSome = true := Bool.eq_false_iff.1 hvacant
    exact absurd (congrArg Prod.fst (if_neg hnone)) h
  spared := by
    intro i b file m h
    have hsome : (m.files (b.site file)).isSome = true := h
    have hcall : m.call b (.createExclusive file) = (.ok false, m) := if_pos hsome
    exact congrArg (fun result => content result.2 (b.site file)) hcall

end Memory

/-! ## Files that cannot be deleted -/

/-- A world in which every deletion fails. -/
def World.stubborn {ε : Type} (w : World ε) : World ε where
  begin := w.begin
  answer i request e :=
    match request with
    | .store _ (.delete _) => (.error (.plain "cannot be deleted"), e)
    | request => w.answer i request e

/-- A request is refused and changes nothing, or is acted on as ever. -/
theorem World.stubborn_answer {ε : Type} (w : World ε) (i : TaskId) (r : Request) (e : ε) :
    (w.stubborn.answer i r e).2 = e ∨ w.stubborn.answer i r e = w.answer i r e := by
  rcases r with ⟨b, call⟩ | _ | _ | _ | _ | _
  · cases call with
    | delete file => exact Or.inl rfl
    | _ => exact Or.inr rfl
  all_goals exact Or.inr rfl

/-- An archive in which every deletion fails. -/
def Archive.stubborn {ε : Type} (w : Archive ε) : Archive ε where
  toWorld := w.toWorld.stubborn
  present := w.present
  untouched := by
    intro i r e σ h
    rcases w.stubborn_answer i r e with hsame | hsame
    · rw [hsame]
    · rw [hsame]
      exact w.untouched i r e σ h
  kept := by
    intro i r e σ h hpresent
    rcases w.stubborn_answer i r e with hsame | hsame
    · rw [hsame]
      exact hpresent
    · rw [hsame]
      exact w.kept i r e σ h hpresent
  probed := w.probed
  vacant := w.vacant
  createdExclusively := w.createdExclusively
  created := w.created
  undeleted := fun _ _ _ _ _ _ => rfl
  locate := w.locate
  content := w.content
  site? := w.site?
  draft? := w.draft?
  source := w.source
  located := w.located
  opened := w.opened
  written := w.written
  finished := w.finished
  pulled := w.pulled
  steady := by
    intro i r e s σ h
    rcases w.stubborn_answer i r e with hsame | hsame
    · rw [hsame]
      exact h
    · rw [hsame]
      exact w.steady i r e s σ h
  apart := by
    intro i r e σ h
    rcases w.stubborn_answer i r e with hsame | hsame
    · rw [hsame]
      exact ⟨rfl, fun _ _ => rfl⟩
    · rw [hsame]
      exact w.apart i r e σ h
  unpulled := by
    intro i j r e h
    rcases w.stubborn_answer i r e with hsame | hsame
    · rw [hsame]
    · rw [hsame]
      exact w.unpulled i j r e h

theorem Archive.Reliable.stubborn {ε : Type} {w : Archive ε} (h : w.Reliable) :
    w.stubborn.Reliable where
  deleted := fun i b file e existed hanswer => by cases hanswer
  uncreated := h.uncreated
  beaten := h.beaten
  spared := h.spared

end FileGateway
