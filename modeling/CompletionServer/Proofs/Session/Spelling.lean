import CompletionServer.Proofs.Session.Place
import CompletionServer.Proofs.Uri.Escaped

/-!
# Spellings of a document

A client chooses which characters of a path it escapes, and need not choose alike in all its
messages. What a session makes of the URI is its name, its scheme and the key of the document, so
two URIs that agree in these are the same document to it, `Capabilities.complete_congr`. The
spellings of a path do, as long as its first slash is not escaped.
-/

namespace CompletionServer

open Completion Text

namespace Uri

/-- **That two URIs are of the same document**: nothing that is made of one tells it from the
other. -/
structure SameDocument (uri uri' : String) : Prop where
  name : fileName uri = fileName uri'
  scheme : scheme? uri = scheme? uri'
  key : Documents.keyOf uri = Documents.keyOf uri'

theorem keyOf_fileUri {path e : List Char} (he : Escapes (Utf8.encode path) e) :
    Documents.keyOf (fileUri e) = String.ofList ("file://".toList ++ path) := by
  have hbytes : escapedBytes ("file://".toList ++ e)
      = Utf8.encode ("file://".toList ++ path) := by
    have hfile : escapedBytes ("file://".toList ++ e)
        = Utf8.encode "file://".toList ++ escapedBytes e := by
      simp [escapedBytes, Utf8.encode]
    rw [hfile, escapedBytes_of_escapes he, Utf8.encode, Utf8.encode, Utf8.encode,
      List.flatMap_append]
  rw [Documents.keyOf, toList_fileUri, percentDecode, hbytes, Utf8.decodeLenient_encode]

theorem sameDocument_of_escapes {path : String} (habsolute : path.toList.head? = some '/')
    (hdrive : startsWithDrive path.toList = false) {e e' : List Char}
    (he : Escapes (Utf8.encode path.toList) e) (he' : Escapes (Utf8.encode path.toList) e')
    (hfirst : e.head? = some '/') (hfirst' : e'.head? = some '/') :
    SameDocument (fileUri e) (fileUri e') where
  name := by
    rw [fileName_of_escapes habsolute hdrive he, fileName_of_escapes habsolute hdrive he',
      if_pos hfirst, if_pos hfirst']
  scheme := by
    rw [scheme?_fileUri (isSpelling_of_mem he), scheme?_fileUri (isSpelling_of_mem he')]
  key := by rw [keyOf_fileUri he, keyOf_fileUri he']

end Uri

/-! ## One document by two URIs -/

section SameDocument

variable {uri uri' : String} (h : Uri.SameDocument uri uri')

include h

theorem Filter.accepts_congr (f : Filter) (language : Option (List Point)) :
    f.accepts uri language = f.accepts uri' language := by
  rw [accepts, accepts, acceptsScheme, acceptsScheme, acceptsPath, acceptsPath, h.name, h.scheme]

theorem selects_congr (filters : List Filter) (language : Option (List Point)) :
    selects filters uri language = selects filters uri' language := by
  have hany : anyAccepts uri language filters = anyAccepts uri' language filters := by
    induction filters with
    | nil => rfl
    | cons f rest ih => rw [anyAccepts, anyAccepts, f.accepts_congr h, ih]
  rw [selects, selects, hany]

theorem Documents.find?_of_sameDocument (ds : Documents) : ds.find? uri = ds.find? uri' := by
  rw [Documents.find?, Documents.find?, h.key]

namespace Capability

variable (v : View) (c : Capability) (line column : ℤ)

theorem canHandle_congr :
    c.canHandle v ⟨uri, line, column⟩ = c.canHandle v ⟨uri', line, column⟩ := by
  simp only [canHandle, languageOf, v.documents.find?_of_sameDocument h, h.name, selects_congr h]

theorem complete_congr : c.complete v ⟨uri, line, column⟩ = c.complete v ⟨uri', line, column⟩ := by
  simp only [complete, query, v.documents.find?_of_sameDocument h, h.name]

end Capability

end SameDocument

/-- Handlers that cannot tell two requests apart give the same list for both. -/
theorem Completion.Handlers.complete_congr {ρ : Type} {m : Type → Type} [Monad m]
    {hs : Handlers ρ m} {p p' : ρ}
    (h : ∀ e ∈ hs, e.2.canHandle p = e.2.canHandle p' ∧ e.2.complete p = e.2.complete p') :
    hs.complete p = hs.complete p' := by
  have hadd (kept : List Item) : ∀ makers : List (Handler ρ m), (∀ e ∈ makers, ∃ k, (k, e) ∈ hs) →
      makers.foldlM (addFrom p) kept = makers.foldlM (addFrom p') kept := by
    intro makers hmakers
    induction makers generalizing kept with
    | nil => rfl
    | cons e makers ih =>
      obtain ⟨⟨key, he⟩, hmakers⟩ := List.forall_mem_cons.mp hmakers
      obtain ⟨hcan, hcomplete⟩ : e.canHandle p = e.canHandle p' ∧ e.complete p = e.complete p' :=
        h _ he
      have hfirst : addFrom p kept e = addFrom p' kept e := by
        rw [addFrom, addFrom, hcan, hcomplete]
      rw [List.foldlM_cons, List.foldlM_cons, hfirst]
      exact bind_congr fun kept ↦ ih kept hmakers
  rw [complete, complete, hadd]
  intro e he
  obtain ⟨⟨key, e⟩, hmem, rfl⟩ := List.mem_map.mp (List.mem_filter.mp he).1
  exact ⟨key, hmem⟩

/-- A request for completion does the same and gives the same whichever of the URIs is in it. -/
theorem Capabilities.complete_congr {uri uri' : String} (h : Uri.SameDocument uri uri') (v : View)
    (cs : Capabilities) (line column : ℤ) :
    cs.complete v ⟨uri, line, column⟩ = cs.complete v ⟨uri', line, column⟩ := by
  refine Handlers.complete_congr fun e he ↦ ?_
  obtain ⟨c, -, rfl⟩ := List.mem_map.mp he
  exact ⟨congrArg Answering.ofExcept (c.2.canHandle_congr h v line column),
    c.2.complete_congr h v line column⟩

/-! ## A path by its spellings -/

/-- **The spellings of a path.** The name of the document is the path if the first slash is not
escaped, whatever else is. So patterns are met by the path, the path is what providers are asked
about, and a request does the same for every such spelling. If the first slash is escaped, the name
is another one: what is before the first slash that is not is an authority. -/
theorem path_of_any_spelling {path : String} (habsolute : path.toList.head? = some '/')
    (hdrive : Uri.startsWithDrive path.toList = false) {e : List Char}
    (he : Uri.Escapes (Utf8.encode path.toList) e) :
    (e.head? ≠ some '/' →
      Uri.fileName (Uri.fileUri e) = .ok (if '/' ∈ e then "//" ++ path else "")) ∧
    (e.head? = some '/' →
      Uri.fileName (Uri.fileUri e) = .ok path ∧
      (∀ (f : Filter) (pattern : String), f.pattern = some pattern → pattern ≠ "" →
        f.acceptsPath (Uri.fileUri e)
          = (Glob.accepts pattern.toList (Filter.slashed path)).mapError (.pattern pattern)) ∧
      (∀ (v : View) (c : Capability) (line column : ℤ) (r : Request),
        c.Asks v ⟨Uri.fileUri e, line, column⟩ r → r.fileName = path) ∧
      ∀ e', Uri.Escapes (Utf8.encode path.toList) e' → e'.head? = some '/' →
        ∀ (v : View) (cs : Capabilities) (line column : ℤ),
          cs.complete v ⟨Uri.fileUri e', line, column⟩
            = cs.complete v ⟨Uri.fileUri e, line, column⟩) := by
  have hname := Uri.fileName_of_escapes habsolute hdrive he
  refine ⟨fun hfirst ↦ by rw [hname, if_neg hfirst], fun hfirst ↦ ?_⟩
  rw [if_pos hfirst] at hname
  refine ⟨hname, fun f pattern hpattern hgiven ↦ ?_, fun v c line column r hasks ↦ ?_, ?_⟩
  · have hfilter : f.pattern.filter (· != "") = some pattern := by
      rw [hpattern, Option.filter_some, if_pos (bne_iff_ne.mpr hgiven)]
    rw [Filter.acceptsPath, hfilter, hname]
    rfl
  · obtain ⟨q, hq, hr⟩ := hasks.request_eq
    obtain ⟨name, hfound, hq⟩ := exists_of_bind_eq_ok hq
    rw [hname] at hfound
    cases hfound
    cases hq
    exact (Request.fields_of_ofQuery? hr).1
  · intro e' he' hfirst' v cs line column
    exact cs.complete_congr (Uri.sameDocument_of_escapes habsolute hdrive he' he hfirst' hfirst) v
      line column

/-- A path with a space, a letter outside ASCII and a percent sign. -/
def spacedPath : String := "/a b/é%.cs"

theorem path_of_spellings_spacedPath :
    spacedPath.toList.head? = some '/' ∧ Uri.startsWithDrive spacedPath.toList = false ∧
      Uri.Escapes (Utf8.encode spacedPath.toList) "/a%20b/%C3%a9%25.cs".toList ∧
      Uri.Escapes (Utf8.encode spacedPath.toList) "/%61%20b%2f%c3%A9%25%2Ecs".toList ∧
      Uri.Escapes (Utf8.encode spacedPath.toList) "%2Fa%20b/%C3%A9%25.cs".toList ∧
      Uri.fileName "file:///a%20b/%C3%a9%25.cs" = .ok "/a b/é%.cs" ∧
      Uri.fileName "file://%2Fa%20b/%C3%A9%25.cs" = .ok "///a b/é%.cs" ∧
      Filter.acceptsPath { pattern := some "/a ?/*.cs" } "file:///a%20b/%C3%a9%25.cs" = .ok true ∧
      ∀ (v : View) (cs : Capabilities),
        cs.complete v ⟨"file:///%61%20b%2f%c3%A9%25%2Ecs", 3, 8⟩
          = cs.complete v ⟨"file:///a%20b/%C3%a9%25.cs", 3, 8⟩ := by
  have habsolute : spacedPath.toList.head? = some '/' := by decide
  have hdrive : Uri.startsWithDrive spacedPath.toList = false := by decide
  have hfew : Uri.Escapes (Utf8.encode spacedPath.toList) "/a%20b/%C3%a9%25.cs".toList := by
    decide +kernel
  have hmany : Uri.Escapes (Utf8.encode spacedPath.toList) "/%61%20b%2f%c3%A9%25%2Ecs".toList := by
    decide +kernel
  have hslash : Uri.Escapes (Utf8.encode spacedPath.toList) "%2Fa%20b/%C3%A9%25.cs".toList := by
    decide +kernel
  obtain ⟨hname, hpattern, -, hsame⟩ := (path_of_any_spelling habsolute hdrive hfew).2 rfl
  have hother := (path_of_any_spelling habsolute hdrive hslash).1 (by decide)
  refine ⟨habsolute, hdrive, hfew, hmany, hslash, hname, hother, ?_,
    fun v cs ↦ hsame _ hmany rfl v cs 3 8⟩
  have haccepts : Glob.accepts "/a ?/*.cs".toList (Filter.slashed spacedPath) = .ok true := by
    decide +kernel
  exact (hpattern _ _ rfl (by decide)).trans (by rw [haccepts]; rfl)

/-- An escaped slash at the start of a path makes an authority of what follows it. -/
theorem not_path_of_escapedSlash :
    ¬∀ (path : String) (e : List Char), path.toList.head? = some '/' →
      Uri.startsWithDrive path.toList = false → Uri.Escapes (Utf8.encode path.toList) e →
        Uri.fileName (Uri.fileUri e) = .ok path := by
  intro h
  have hslash : Uri.Escapes (Utf8.encode "/a".toList) "%2Fa".toList := by decide +kernel
  have hpath := h "/a" "%2Fa".toList (by decide) (by decide) hslash
  rw [Uri.fileName_of_escapes (by decide) (by decide) hslash] at hpath
  revert hpath
  decide

end CompletionServer
