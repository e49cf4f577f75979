import FileGateway.Gateway.Schedule

/-!
# Realms

A realm is a world whose stores keep files: at every moment it can be told at which sites there is a
file. The laws of a realm are what leases rely on, and nothing else:

* a call changes the files at its own site only, and only a deletion takes a file away;
* whoever is told that there is no file, or that a file was created exclusively, is told the truth;
* a file that was created is there, and a deletion that fails leaves the file.

Stores of one identity reach the same files, so a site is an identity and a file.

A realm is reliable if the calls that create and delete files do what they tell, and nothing else: a
deletion that does not fail has removed the file, and a creation that does not succeed has made
none.

An archive is a realm whose files have contents. Of a stream that writes to a file it can be told
which file that is and, as long as nobody else has touched the file, what it will hold once the
stream is completed. The laws of an archive say nothing of a file that two streams have written to.
A reliable archive is a reliable realm in which an exclusive creation leaves the contents of a file
alone that is there.
-/

namespace FileGateway

/-- A place for a file: which files are reached, and where among them. -/
structure Site where
  identity : String
  file : FileRef
deriving DecidableEq

/-- The site of a file of a store. -/
def Backend.site (b : Backend) (file : FileRef) : Site :=
  ⟨b.identity, file⟩

/-- The file that a call may create, change or remove. -/
def StoreCall.altered? : StoreCall → Option FileRef
  | createFile file | createExclusive file | delete file => some file
  | openWrite file _ => some file
  | _ => none

/-- The file that a call may remove. -/
def StoreCall.deleted? : StoreCall → Option FileRef
  | delete file => some file
  | _ => none

namespace Request

/-- The site where a request may create, change or remove a file. -/
def altered? : Request → Option Site
  | store b call => call.altered?.map b.site
  | _ => none

/-- The site where a request may remove a file. -/
def deleted? : Request → Option Site
  | store b call => call.deleted?.map b.site
  | _ => none

/-- The site of the file that a request touches, if `site?` tells the files of streams. -/
def touched? (site? : StreamId → Option Site) : Request → Option Site
  | store _ (.write stream _) => site? stream
  | store _ (.finish stream) => site? stream
  | r => r.altered?

end Request

/-- A world whose stores keep files. It can be told whether there is one at a site. -/
structure Realm (ε : Type) extends World ε where
  present : ε → Site → Bool
  -- a file comes and goes by requests about it only, and goes by a deletion only
  untouched : ∀ i r e σ, r.altered? ≠ some σ → present (answer i r e).2 σ = present e σ
  kept : ∀ i r e σ, r.deleted? ≠ some σ → present e σ = true → present (answer i r e).2 σ = true
  -- what the stores tell is true
  probed : ∀ i b file e found, (answer i (.store b (.probe file)) e).1 = .ok found →
    found = present e (b.site file)
  vacant : ∀ i b file e, (answer i (.store b (.createExclusive file)) e).1 = .ok true →
    present e (b.site file) = false
  createdExclusively : ∀ i b file e, (answer i (.store b (.createExclusive file)) e).1 = .ok true →
    present (answer i (.store b (.createExclusive file)) e).2 (b.site file) = true
  created : ∀ i b file e, (answer i (.store b (.createFile file)) e).1 = .ok () →
    present (answer i (.store b (.createFile file)) e).2 (b.site file) = true
  undeleted : ∀ i b file e f, (answer i (.store b (.delete file)) e).1 = .error f →
    present (answer i (.store b (.delete file)) e).2 (b.site file) = present e (b.site file)

/-- What creates and deletes files in a realm does what it tells. -/
structure Realm.Reliable {ε : Type} (w : Realm ε) : Prop where
  deleted : ∀ i b file e existed, (w.answer i (.store b (.delete file)) e).1 = .ok existed →
    w.present (w.answer i (.store b (.delete file)) e).2 (b.site file) = false
  uncreated : ∀ i b file e f, (w.answer i (.store b (.createFile file)) e).1 = .error f →
    w.present e (b.site file) = false →
      w.present (w.answer i (.store b (.createFile file)) e).2 (b.site file) = false
  beaten : ∀ i b file e, (w.answer i (.store b (.createExclusive file)) e).1 ≠ .ok true →
    w.present e (b.site file) = false →
      w.present (w.answer i (.store b (.createExclusive file)) e).2 (b.site file) = false

/-- A realm whose files have contents, whose paths lead to files, and whose callers have sources.

On every store of an identity a path leads to the file `locate`. A stream writes to the file at its
`site?`, which will hold its `draft?` if the stream is completed now. Of the source of a task
`source` is what is left. -/
structure Archive (ε : Type) extends Realm ε where
  locate : String → Path → FileRef
  content : ε → Site → Bytes
  site? : ε → StreamId → Option Site
  draft? : ε → StreamId → Option Bytes
  source : ε → TaskId → Bytes
  -- a path leads to the same file through all stores of an identity, at all times
  located : ∀ i b path options e file,
    (answer i (.store b (.resolve path options)) e).1 = .ok file → file = locate b.identity path
  -- a stream collects what is written to it, and the file holds it once the stream is completed
  opened : ∀ i b file append e s, (answer i (.store b (.openWrite file append)) e).1 = .ok s →
    site? e s = none ∧
    site? (answer i (.store b (.openWrite file append)) e).2 s = some (b.site file) ∧
    draft? (answer i (.store b (.openWrite file append)) e).2 s =
      some (if append then content e (b.site file) else [])
  written : ∀ i b s piece e draft, (answer i (.store b (.write s piece)) e).1 = .ok () →
    draft? e s = some draft →
    draft? (answer i (.store b (.write s piece)) e).2 s = some (draft ++ piece)
  finished : ∀ i b s e σ draft, (answer i (.store b (.finish s)) e).1 = .ok () →
    site? e s = some σ → draft? e s = some draft →
    content (answer i (.store b (.finish s)) e).2 σ = draft
  -- a source is taken piece by piece, and the empty piece is its end
  pulled : ∀ i e piece, (answer i .pull e).1 = .ok piece →
    source e i = piece ++ source (answer i .pull e).2 i ∧
    (piece = [] → source (answer i .pull e).2 i = [])
  -- nothing else changes streams, files and sources
  steady : ∀ i r e s σ, site? e s = some σ → site? (answer i r e).2 s = some σ
  apart : ∀ i r e σ, r.touched? (site? e) ≠ some σ →
    content (answer i r e).2 σ = content e σ ∧
    ∀ s, site? e s = some σ → draft? (answer i r e).2 s = draft? e s
  unpulled : ∀ i j r e, r ≠ .pull ∨ j ≠ i → source (answer i r e).2 j = source e j

/-- What creates and deletes files in an archive does what it tells. -/
structure Archive.Reliable {ε : Type} (w : Archive ε) : Prop extends w.toRealm.Reliable where
  spared : ∀ i b file e, w.present e (b.site file) = true →
    w.content (w.answer i (.store b (.createExclusive file)) e).2 (b.site file) =
      w.content e (b.site file)

end FileGateway
