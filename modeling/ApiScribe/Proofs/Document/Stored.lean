import ApiScribe.Document.File
import ApiScribe.Proofs.Document.Tree
import ApiScribe.Proofs.Json.Newlines

set_option autoImplicit false

/-! # Documents in files

A file is read with its newlines unified, a text that is at hand is parsed as it is. It makes no
difference: a file that holds a text gives the schema that the text itself gives, or is refused for
the same fault of a node (`load_iff_read`). Only where the text is no JSON, and the fault of the
syntax is reported by its place, the two reports may differ. -/

namespace ApiScribe.Document

/-- A file holds the value of the text in it. -/
theorem parseFile_eq_ok_iff {fs : FileSystem} {file text : String}
    (h : fs.readFile (Route.ofText file) = .ok text.toUTF8) (value : Json) :
    parseFile fs file = .ok value ↔ Json.read text = .ok value := by
  have hsame : Text.SameButNewlines
      (String.ofList (Text.unifyNewlines text.toList)).toList text.toList := by
    rw [String.toList_ofList]
    exact Text.SameButNewlines.unified text.toList
  rw [← Json.read_eq_ok_of_sameButNewlines hsame value]
  unfold parseFile
  rw [h]
  dsimp only
  rw [Text.decodeUtf8_toUTF8]
  dsimp only
  cases Json.read (String.ofList (Text.unifyNewlines text.toList)) <;> simp

theorem load_eq_ok_iff {fs : FileSystem} {file : String} {scopes after : Scopes} {schema : Schema}
    {event : Event} :
    load fs file scopes = .ok (schema, after, event) ↔
      ∃ value, parseFile fs file = .ok value ∧ read scopes value = .ok (schema, after) ∧
        event = .loaded schema.name file := by
  unfold load
  cases parseFile fs file with
  | error e => simp
  | ok value =>
    cases hread : read scopes value with
    | error e => simp [hread]
    | ok result =>
      obtain ⟨found, scopes'⟩ := result
      simp only [Except.ok.injEq, Prod.mk.injEq, exists_eq_left', hread]
      constructor
      · rintro ⟨rfl, rfl, rfl⟩
        exact ⟨⟨rfl, rfl⟩, rfl⟩
      · rintro ⟨⟨rfl, rfl⟩, rfl⟩
        exact ⟨rfl, rfl, rfl⟩

theorem load_eq_refused {fs : FileSystem} {file : String} {scopes : Scopes} {value : Json}
    {e : Error} (hvalue : parseFile fs file = .ok value) (hread : read scopes value = .error e) :
    load fs file scopes = .error (.refused e) := by
  simp only [load, hvalue, hread]

/-- **A stored document is read like its text**, whatever its lines end with. Loading gives a schema
    exactly if the text has a value that describes one, and it is the same tree; only the scopes
    depend on how many there were before. Where the text has a value that is no document, loading is
    refused with the very error of that value. -/
theorem load_iff_read {fs : FileSystem} {file text : String}
    (h : fs.readFile (Route.ofText file) = .ok text.toUTF8) (scopes scopes' : Scopes) :
    ((∃ result, load fs file scopes = .ok result) ↔
      ∃ value result, Json.read text = .ok value ∧ read scopes' value = .ok result) ∧
    (∀ schema after event value schema' after', load fs file scopes = .ok (schema, after, event) →
      Json.read text = .ok value → read scopes' value = .ok (schema', after') →
        schema.withoutScopes = schema'.withoutScopes ∧
          (scopes = scopes' → schema = schema' ∧ after = after')) ∧
    ∀ value e, Json.read text = .ok value → read scopes' value = .error e →
      load fs file scopes = .error (.refused e) := by
  refine ⟨⟨?_, ?_⟩, ?_, ?_⟩
  · rintro ⟨⟨schema, after, event⟩, hload⟩
    obtain ⟨value, hvalue, hread, -⟩ := load_eq_ok_iff.1 hload
    obtain ⟨result, hread'⟩ := exists_read_of_read hread scopes'
    exact ⟨value, result, (parseFile_eq_ok_iff h value).1 hvalue, hread'⟩
  · rintro ⟨value, result, hvalue, hread⟩
    obtain ⟨⟨schema, after⟩, hread'⟩ := exists_read_of_read hread scopes
    exact ⟨_, load_eq_ok_iff.2 ⟨value, (parseFile_eq_ok_iff h value).2 hvalue, hread', rfl⟩⟩
  · intro schema after event value schema' after' hload hvalue hread'
    obtain ⟨value', hvalue', hread, -⟩ := load_eq_ok_iff.1 hload
    rw [parseFile_eq_ok_iff h, hvalue] at hvalue'
    obtain rfl := Except.ok.inj hvalue'
    refine ⟨withoutScopes_eq_of_read hread hread', ?_⟩
    rintro rfl
    rw [hread] at hread'
    exact Prod.mk.inj (Except.ok.inj hread')
  · intro value e hvalue hread
    exact load_eq_refused ((parseFile_eq_ok_iff h value).2 hvalue)
      (read_eq_error_of_read_eq_error hread scopes)

/-! ## A file system with one document -/

/-- The text in the file `api.json`, and no other entry. -/
def storedText (text : String) : FileSystem := ⟨[(["api.json"], .file text.toUTF8)], []⟩

theorem readFile_storedText (text : String) :
    (storedText text).readFile (Route.ofText "api.json") = .ok text.toUTF8 := by
  have hroute : Route.ofText "api.json" = ["api.json"] := by decide
  rw [hroute]
  rfl

theorem load_storedText {text : String} {value : Json} {schema : Schema} {after : Scopes}
    (hvalue : Json.read text = .ok value) (hread : read {} value = .ok (schema, after)) :
    load (storedText text) "api.json" {} = .ok (schema, after, .loaded schema.name "api.json") :=
  load_eq_ok_iff.2 ⟨value, (parseFile_eq_ok_iff (readFile_storedText text) value).2 hvalue, hread, rfl⟩

/-- A document whose lines end with CR LF and with CR. -/
def brokenLines : String :=
  "\x7b\"apis\":\r\n\x7b\"list\":\r\x7b\"method\": \"GET\"\x7d\x7d\x7d\r\n"

theorem load_iff_read_brokenLines :
    (storedText brokenLines).readFile (Route.ofText "api.json") = .ok brokenLines.toUTF8 ∧
      ∃ after event, load (storedText brokenLines) "api.json" {} =
        .ok (⟨none, none, 0, [("list", .endpoint ⟨none, .get none, 1⟩)]⟩, after, event) := by
  have hvalue : Json.read brokenLines = .ok (.object [("apis",
      .object [("list", .object [("method", .string "GET")])])]) := by
    rw [Json.read_eq_ok_iff, brokenLines]
    simp only [String.reduceToList]
    rfl
  have hread : ∃ after, read {} (.object [("apis",
      .object [("list", .object [("method", .string "GET")])])]) =
        .ok (⟨none, none, 0, [("list", .endpoint ⟨none, .get none, 1⟩)]⟩, after) := ⟨_, by rfl⟩
  obtain ⟨after, hread⟩ := hread
  have hfile := readFile_storedText brokenLines
  obtain ⟨hloads, hsame, -⟩ := load_iff_read hfile {} {}
  obtain ⟨⟨schema, after', event⟩, hload⟩ := hloads.2 ⟨_, _, hvalue, hread⟩
  obtain ⟨rfl, rfl⟩ := (hsame _ _ _ _ _ _ hload hvalue hread).2 rfl
  exact ⟨hfile, _, event, hload⟩

end ApiScribe.Document
