import BoostPractice.HttpMessageProofs
import BoostPractice.LexicalPathProofs

/-! # `handle_request` — a file for a request

    The HTTP server answers a GET or HEAD request with a file below its
    document root.  `handle_request` checks the method and the target, opens
    the file at the root and the target put together, and answers with an
    error if that fails; but of all the errors that opening can fail with it
    knows one.

    `classified_iff` says for which requests the answer is the right one, and
    `opened_confined` that the file that is opened lies below the root. -/

namespace HttpSession

open HttpMessage LexicalPath

abbrev Bytes := List UInt8

/-! ## Requests, files and responses -/

/-- `http::verb`; the others are all alike to the server. -/
inductive Verb where
  | get
  | head
  | other (verb : Nat)
  deriving DecidableEq

/-- A request, as the parser hands it over; its version is two digits. -/
structure Request where
  method : Verb
  target : Bytes
  version : Fin 100
  keepAlive : Bool
  deriving DecidableEq

/-- An error of the file system by its number, zero for none. -/
abbrev ErrorCode := Nat

/-- `errc::no_such_file_or_directory`. -/
def noSuchFileOrDirectory : ErrorCode := 2

/-- `file_body::value_type`: whether it holds an open file, and the octets
    that are its size and that are sent for it. -/
structure FileBody where
  isOpen : Bool
  content : Bytes
  deriving DecidableEq

/-- What `open` leaves. -/
structure Opened where
  ec : ErrorCode
  body : FileBody
  isOpen_iff : body.isOpen = true ↔ ec = 0

/-- What opening a path comes to. -/
abbrev FileSystem := Bytes → Opened

inductive Status where
  | ok
  | badRequest
  | notFound
  deriving DecidableEq

structure Response where
  status : Status
  version : Fin 100
  server : Line
  contentType : Line
  keepAlive : Bool
  contentLength : Nat
  body : Bytes
  deriving DecidableEq

/-! ## Names and paths -/

def mimeTypes : List (String × String) :=
  [(".htm", "text/html"), (".html", "text/html"), (".php", "text/html"), (".css", "text/css"),
    (".txt", "text/plain"), (".js", "application/javascript"), (".json", "application/json"),
    (".xml", "application/xml"), (".swf", "application/x-shockwave-flash"),
    (".flv", "video/x-flv"), (".png", "image/png"), (".jpe", "image/jpeg"),
    (".jpeg", "image/jpeg"), (".jpg", "image/jpeg"), (".gif", "image/gif"), (".bmp", "image/bmp"),
    (".ico", "image/vnd.microsoft.icon"), (".tiff", "image/tiff"), (".tif", "image/tiff"),
    (".svg", "image/svg+xml"), (".svgz", "image/svg+xml")]

/-- What stands from the last dot on. -/
def extension (path : Bytes) : Bytes :=
  if 46 ∈ path then 46 :: (path.reverse.takeWhile (· ≠ 46)).reverse else []

def mimeName (path : Bytes) : String :=
  match mimeTypes.find? fun entry => sameName (extension path) (text entry.1) with
  | some entry => entry.2
  | none => "application/text"

theorem mimeName_oneLine (path : Bytes) : 13 ∉ text (mimeName path) := by
  have hall : ∀ entry ∈ mimeTypes, 13 ∉ text entry.2 := by decide +kernel
  rw [mimeName]
  split
  · next entry hentry => exact hall entry (List.mem_of_find?_eq_some hentry)
  · decide

/-- `mime_type`. -/
def mimeType (path : Bytes) : Line := ⟨text (mimeName path), mimeName_oneLine path⟩

/-- `path_cat`. -/
def pathCat (base path : Bytes) : Bytes :=
  if base = [] then path
  else
    let result := if base.getLast? = some 47 then base.dropLast else base
    result ++ path

/-- The path that a target names. -/
def targetPath (docRoot target : Bytes) : Bytes :=
  let path := pathCat docRoot target
  if target.getLast? = some 47 then path ++ text "index.html" else path

/-- `c_str()`, as who it is handed to reads it. -/
def cString (s : Bytes) : Bytes := s.takeWhile (· ≠ 0)

/-- The targets that are refused: empty, not from the root, or with two dots. -/
def IllegalTarget (target : Bytes) : Prop :=
  target = [] ∨ target[0]? ≠ some 47 ∨ [46, 46] <:+: target

instance (target : Bytes) : Decidable (IllegalTarget target) :=
  inferInstanceAs (Decidable (_ ∨ _ ∨ _))

/-! ## The handler -/

section Handler

variable (server : Line) (docRoot : Bytes) (files : FileSystem) (req : Request)

def textHtml : Line := ⟨text "text/html", by decide⟩

def badRequest (why : Bytes) : Response :=
  let body := text "An error occurred: '" ++ why ++ text "'"
  { status := .badRequest
    version := req.version
    server := server
    contentType := textHtml
    keepAlive := req.keepAlive
    contentLength := body.length
    body := body }

def notFound (path : Bytes) : Response :=
  let body := path ++ text " is not found"
  { status := .notFound
    version := req.version
    server := server
    contentType := textHtml
    keepAlive := false
    contentLength := body.length
    body := body }

/-- The response that is sent, the path that was opened and the file that was
    asked for its size. -/
structure Handled where
  response : Response
  opened : Option Bytes
  sized : Option FileBody

/-- `handle_request`. -/
def handleRequest : Handled :=
  if req.method ≠ .get ∧ req.method ≠ .head then
    ⟨badRequest server req (text "Unknown http method"), none, none⟩
  else if IllegalTarget req.target then
    ⟨badRequest server req (text "Illegal request-target"), none, none⟩
  else
    let path := targetPath docRoot req.target
    let file := files (cString path)
    -- every other error goes on as if the file were open
    if file.ec = noSuchFileOrDirectory then
      ⟨notFound server req req.target, some (cString path), none⟩
    else
      ⟨{ status := .ok
         version := req.version
         server := server
         contentType := mimeType path
         keepAlive := req.keepAlive
         contentLength := file.body.content.length
         body := file.body.content }, some (cString path), some file.body⟩

/-- The file that a request is about. -/
def requestedFile : Opened := files (cString (targetPath docRoot req.target))

/-- A request that a file is opened for. -/
def Accepted : Prop := (req.method = .get ∨ req.method = .head) ∧ ¬ IllegalTarget req.target

instance : Decidable (Accepted req) := inferInstanceAs (Decidable (_ ∧ _))

/-- What handling a request comes to. -/
theorem handleRequest_cases :
    (¬ Accepted req ∧ ∃ why,
      handleRequest server docRoot files req = ⟨badRequest server req why, none, none⟩) ∨
    (Accepted req ∧ (requestedFile docRoot files req).ec = noSuchFileOrDirectory ∧
      handleRequest server docRoot files req = ⟨notFound server req req.target,
        some (cString (targetPath docRoot req.target)), none⟩) ∨
    (Accepted req ∧ (requestedFile docRoot files req).ec ≠ noSuchFileOrDirectory ∧
      ∃ response, handleRequest server docRoot files req = ⟨response,
        some (cString (targetPath docRoot req.target)),
        some (requestedFile docRoot files req).body⟩ ∧
      response.status = .ok ∧
      response.body = (requestedFile docRoot files req).body.content ∧
      response.contentLength = (requestedFile docRoot files req).body.content.length) := by
  rw [handleRequest]
  split
  · next hmethod =>
      exact .inl ⟨fun h => h.1.elim hmethod.1 hmethod.2, _, rfl⟩
  · next hmethod =>
      split
      · next htarget => exact .inl ⟨fun h => h.2 htarget, _, rfl⟩
      · next htarget =>
          have haccepted : Accepted req := by
            refine ⟨?_, htarget⟩
            by_contra hneither
            exact hmethod (not_or.mp hneither)
          dsimp only
          split
          · next hec => exact .inr (.inl ⟨haccepted, hec, rfl⟩)
          · next hec => exact .inr (.inr ⟨haccepted, hec, _, rfl, rfl, rfl, rfl⟩)

/-! ## Which answers are right -/

/-- **CLASSIFIED**: the response is the file if and only if there is one to be
    had, a file that cannot be opened is an error, and none is asked for its
    size that is not open. -/
structure Classified : Prop where
  served : ((handleRequest server docRoot files req).response.status = .ok ∧
      (handleRequest server docRoot files req).response.body
        = (requestedFile docRoot files req).body.content ∧
      (handleRequest server docRoot files req).response.contentLength
        = (requestedFile docRoot files req).body.content.length) ↔
    Accepted req ∧ (requestedFile docRoot files req).ec = 0
  failed : Accepted req → (requestedFile docRoot files req).ec ≠ 0 →
    (handleRequest server docRoot files req).response.status ≠ .ok
  sized : ∀ body ∈ (handleRequest server docRoot files req).sized, body.isOpen = true

/-- **CLASSIFIED, EXACTLY**: every request is, but one whose file cannot be
    opened for another reason than that there is none. -/
theorem classified_iff : Classified server docRoot files req ↔
    ¬ (Accepted req ∧ (requestedFile docRoot files req).ec ≠ 0 ∧
      (requestedFile docRoot files req).ec ≠ noSuchFileOrDirectory) := by
  rcases handleRequest_cases server docRoot files req with
    ⟨hnot, why, hhandled⟩ | ⟨haccepted, hec, hhandled⟩ |
    ⟨haccepted, hec, response, hhandled, hok, hbody, hlength⟩
  · refine iff_of_true ?_ fun h => hnot h.1
    constructor
    · rw [hhandled]
      refine iff_of_false ?_ fun h => hnot h.1
      rintro ⟨h, -⟩
      cases h
    · exact fun h => absurd h hnot
    · rw [hhandled]
      exact nofun
  · have hne : (requestedFile docRoot files req).ec ≠ 0 := by
      rw [hec]
      decide
    refine iff_of_true ?_ fun h => h.2.2 hec
    constructor
    · rw [hhandled]
      refine iff_of_false ?_ fun h => hne h.2
      rintro ⟨h, -⟩
      cases h
    · intro _ _
      rw [hhandled]
      exact nofun
    · rw [hhandled]
      exact nofun
  · constructor
    · rintro hclassified ⟨-, hne, -⟩
      refine hclassified.failed haccepted hne ?_
      rw [hhandled]
      exact hok
    · intro hopens
      have hzero : (requestedFile docRoot files req).ec = 0 := by
        by_contra hne
        exact hopens ⟨haccepted, hne, hec⟩
      constructor
      · rw [hhandled]
        exact iff_of_true ⟨hok, hbody, hlength⟩ ⟨haccepted, hzero⟩
      · exact fun _ hne => absurd hzero hne
      · rw [hhandled]
        intro body hbody
        obtain rfl := Option.some.inj hbody
        exact (requestedFile docRoot files req).isOpen_iff.mpr hzero

end Handler

/-- A server's name. -/
def beast : Line := ⟨text "Boost.Beast/248", by decide⟩

/-- A file that nobody may read. -/
def unreadable : FileSystem := fun _ => ⟨13, ⟨false, []⟩, by decide⟩

/-- The file is there and may not be read: the answer is 200. -/
theorem unreadable_file_served :
    ¬ Classified beast (text "/srv") unreadable ⟨.get, text "/a", 11, true⟩ := by
  intro h
  exact h.failed (by decide) (by decide) rfl

/-! ## Which files are opened -/

theorem cString_append {p : Bytes} (h : 0 ∉ p) (q : Bytes) : cString (p ++ q) = p ++ cString q := by
  rw [cString, List.takeWhile_append_of_pos]
  · rfl
  · intro b hb
    exact decide_eq_true fun heq => h (heq ▸ hb)

/-- A string with a zero in it ends there. -/
theorem cString_append_of_mem {p : Bytes} (h : 0 ∈ p) (q : Bytes) :
    cString (p ++ q) = cString p := by
  obtain ⟨before, after, rfl, hnot⟩ := List.eq_append_cons_of_mem h
  rw [List.append_assoc, cString_append hnot, cString_append hnot]
  rfl

theorem cString_of_notMem {p : Bytes} (h : 0 ∉ p) : cString p = p := by
  have happend := cString_append h []
  rw [List.append_nil] at happend
  exact happend.trans (List.append_nil p)

/-- The root, without a slash at its end, and the target. -/
theorem pathCat_eq (docRoot target : Bytes) :
    ∃ base, pathCat docRoot target = base ++ target ∧
      (docRoot = base ∨ docRoot = base ++ [47]) := by
  rw [pathCat]
  split
  · next hnil => exact ⟨[], rfl, .inl hnil⟩
  · dsimp only
    split
    · next hlast =>
        exact ⟨docRoot.dropLast, rfl, .inr (List.dropLast_append_getLast? 47 hlast).symm⟩
    · exact ⟨docRoot, rfl, .inl rfl⟩

/-- What is appended to a legal target behind its first slash has no component
    of two dots, nor has the part of it that a zero leaves. -/
theorem dots_notMem_target {q : Bytes} (h : ¬ [46, 46] <:+: 47 :: q) {name : Bytes}
    (hname : name = [] ∨ (47 :: q).getLast? = some 47 ∧ name = text "index.html") :
    [46, 46] ∉ components 47 46 (cString (q ++ name)) := by
  have hq : ∀ p, p <+: q → [46, 46] ∉ components 47 46 p := by
    intro p hp
    exact dots_notMem_components 47 46 fun hdouble => h (List.infix_cons (hdouble.trans hp.isInfix))
  have hindex : [46, 46] ∉ components 47 46 (cString (text "index.html")) := by decide +kernel
  rcases hname with rfl | ⟨hlast, rfl⟩
  · rw [List.append_nil]
    exact hq _ (List.takeWhile_prefix _)
  · by_cases hzero : 0 ∈ q
    · rw [cString_append_of_mem hzero]
      exact hq _ (List.takeWhile_prefix _)
    · rw [cString_append hzero]
      rcases List.eq_nil_or_concat q with rfl | ⟨q', b, rfl⟩
      · exact hindex
      · -- the last slash keeps the name apart from what is before it
        rw [List.concat_eq_append, ← List.cons_append, List.getLast?_concat] at hlast
        obtain rfl := Option.some.inj hlast
        rw [List.concat_eq_append, List.append_assoc, List.singleton_append, components_append,
          List.mem_append, not_or]
        exact ⟨hq q' (List.concat_eq_append ▸ List.prefix_append q' [47]), hindex⟩

/-- The path that a target with a slash in front names. -/
theorem targetPath_eq (docRoot q : Bytes) :
    ∃ base name, targetPath docRoot (47 :: q) = base ++ 47 :: (q ++ name) ∧
      (docRoot = base ∨ docRoot = base ++ [47]) ∧
      (name = [] ∨ (47 :: q).getLast? = some 47 ∧ name = text "index.html") := by
  obtain ⟨base, hcat, hbase⟩ := pathCat_eq docRoot (47 :: q)
  rw [targetPath, hcat]
  split
  · next hlast =>
      refine ⟨base, _, ?_, hbase, .inr ⟨hlast, rfl⟩⟩
      rw [List.append_assoc, List.cons_append]
  · refine ⟨base, [], ?_, hbase, .inl rfl⟩
    rw [List.append_nil]

/-- Where a legal target leads from a root. -/
theorem resolve_targetPath {docRoot q : Bytes} (h : ¬ [46, 46] <:+: 47 :: q) :
    resolve 47 46 (cString docRoot) <+: resolve 47 46 (cString (targetPath docRoot (47 :: q))) := by
  obtain ⟨base, name, hpath, hbase, hname⟩ := targetPath_eq docRoot q
  have hdots := dots_notMem_target h hname
  rw [hpath]
  by_cases hzero : 0 ∈ base
  · -- both strings end within the root
    rw [cString_append_of_mem hzero]
    rcases hbase with rfl | rfl
    · exact List.prefix_refl _
    · rw [cString_append_of_mem hzero]
  · have htail : cString (47 :: (q ++ name)) = 47 :: cString (q ++ name) := rfl
    have hroot : resolve 47 46 (cString docRoot) = resolve 47 46 base := by
      rcases hbase with rfl | rfl
      · rw [cString_of_notMem hzero]
      · rw [cString_append hzero]
        exact resolve_concat 47 46 base
    rw [cString_append hzero, htail, hroot, resolve_append 47 46 base hdots]
    exact List.prefix_append _ _

/-- **CONFINED**: every path that is opened leads where the root leads, or
    further down from there. -/
theorem opened_confined {server : Line} {docRoot : Bytes} {files : FileSystem} {req : Request}
    {path : Bytes} (h : (handleRequest server docRoot files req).opened = some path) :
    resolve 47 46 (cString docRoot) <+: resolve 47 46 path := by
  have hopened : Accepted req ∧ path = cString (targetPath docRoot req.target) := by
    rcases handleRequest_cases server docRoot files req with ⟨-, why, hhandled⟩ |
      ⟨haccepted, -, hhandled⟩ | ⟨haccepted, -, response, hhandled, -⟩
    · rw [hhandled] at h
      cases h
    · rw [hhandled] at h
      exact ⟨haccepted, (Option.some.inj h).symm⟩
    · rw [hhandled] at h
      exact ⟨haccepted, (Option.some.inj h).symm⟩
  obtain ⟨⟨-, hlegal⟩, rfl⟩ := hopened
  rw [IllegalTarget, not_or, not_or] at hlegal
  obtain ⟨-, hslash, hdots⟩ := hlegal
  cases htarget : req.target with
  | nil =>
      rw [htarget] at hslash
      exact absurd nofun hslash
  | cons b q =>
      rw [htarget] at hslash hdots
      obtain rfl : b = 47 := Option.some.inj (not_not.mp hslash)
      exact resolve_targetPath hdots

/-- Slashes, dots and a percent sign behind a root that ends with a slash. -/
theorem opened_confined_dots :
    resolve 47 46 (cString (text "/srv/")) <+:
      resolve 47 46 (text "/srv//./a%2e/index.html") := by
  have hopened : (handleRequest beast (text "/srv/") unreadable
      ⟨.get, text "//./a%2e/", 11, true⟩).opened = some (text "/srv//./a%2e/index.html") := by
    decide +kernel
  exact opened_confined hopened

end HttpSession
