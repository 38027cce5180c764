import ApiModel.Client.Header
import ApiModel.Proofs.Text.Cut
import Mathlib.Data.List.Forall2

/-!
# The address of a server

The address of a server is written with the places of variables in it. Where a variable has a
default, the text of the default stands in its place.

**Theorem (`serverOf_written`).** The address of the first server is the parts of its url, each
filled by itself, without the slashes at the end. A default that holds braces is not filled again.

The url is gone through from its front, and no text holds an opening brace, so each part is found
where it was written (`replaceBraced_written`).
-/

namespace ApiModel

namespace Client

/-! ## Parts of a url -/

/-- A part of a url: a text, or the place of a variable. -/
inductive Part where
  | text (s : List Char)
  | place (name : List Char)

namespace Part

/-- The part as it stands in the url. -/
def written : Part → List Char
  | text s => s
  | place name => '\x7b' :: (name ++ ['\x7d'])

/-- A text without opening braces, or the place of a variable whose name is on one line and has no
closing brace in it. -/
def IsPlain : Part → Prop
  | text s => '\x7b' ∉ s
  | place name => '\x7d' ∉ name ∧ '\n' ∉ name

instance : DecidablePred IsPlain
  | text s => inferInstanceAs (Decidable ('\x7b' ∉ s))
  | place name => inferInstanceAs (Decidable ('\x7d' ∉ name ∧ '\n' ∉ name))

/-- What stands in the address for a part: the default of a variable that has one, and the part as
it is in all other cases. -/
inductive Filled (values : Node) : Part → List Char → Prop
  | text (s : List Char) : Filled values (text s) s
  | default {name : List Char} {entry value : Node} :
      values.get? (String.ofList name) = some entry → entry.get? "default" = some value →
      Filled values (place name) value.display.toList
  | kept {name : List Char} :
      (∀ entry, values.get? (String.ofList name) = some entry → entry.get? "default" = none) →
      Filled values (place name) (place name).written

/-- What is put for a part. -/
def filling (values : Node) : Part → List Char
  | text s => s
  | place name => variableText values name

end Part

section Parts

variable {values : Node} {parts : List Part}

theorem filled_filling (values : Node) (part : Part) :
    part.Filled values (part.filling values) := by
  cases part with
  | text s => exact .text s
  | place name =>
    rw [Part.filling, variableText, Node.field]
    cases hentry : values.get? (String.ofList name) with
    | none => exact .kept fun entry h => by simp [hentry] at h
    | some entry =>
      rw [Option.getD_some]
      cases hvalue : entry.get? "default" with
      | none => exact .kept fun other h => by rwa [← Option.some.inj (hentry.symm.trans h)]
      | some value => exact .default hentry hvalue

/-- Each part of a url is found and filled. -/
theorem replaceBraced_written (h : ∀ part ∈ parts, part.IsPlain) :
    Text.replaceBraced (variableText values) (parts.flatMap Part.written) =
      (parts.map (Part.filling values)).flatten := by
  induction parts with
  | nil => simp [Text.replaceBraced]
  | cons part parts ih =>
    obtain ⟨hpart, hparts⟩ := List.forall_mem_cons.1 h
    rw [List.flatMap_cons, List.map_cons, List.flatten_cons, ← ih hparts]
    cases part with
    | text s => exact Text.replaceBraced_append hpart
    | place name =>
      rw [Part.written, List.cons_append, List.append_assoc, List.singleton_append]
      exact Text.replaceBraced_braced hpart.1 hpart.2

theorem forall₂_filled (values : Node) (parts : List Part) :
    List.Forall₂ (Part.Filled values) parts (parts.map (Part.filling values)) := by
  rw [List.forall₂_map_right_iff]
  exact List.forall₂_same.2 fun part _ => filled_filling values part

end Parts

/-! ## The first server -/

section Address

variable {document server : Node} {others : List Node} {url : String}

/-- A node that says nothing has no keys, as the empty mapping. -/
theorem get?_orElse (n : Node) (key : String) : (n.orElse (.map [])).get? key = n.get? key := by
  unfold Node.orElse
  split_ifs with htruthy
  · rfl
  · cases n with
    | map entries =>
      cases entries with
      | nil => rfl
      | cons e rest => simp [Node.truthy] at htruthy
    | _ => rfl

theorem variableText_orElse (values : Node) :
    variableText (values.orElse (.map [])) = variableText values := by
  funext name
  rw [variableText, Node.field, get?_orElse]
  rfl

theorem firstServer_list (hurl : server.get? "url" = some (.text url)) :
    firstServer (.list (server :: others)) = pure server := by
  cases server with
  | map entries => rfl
  | _ => cases hurl

theorem serverOfList_eq (hservers : document.get? "servers" = some (.list (server :: others)))
    (hurl : server.get? "url" = some (.text url))
    (hvalues : (server.field "variables").truthy = true →
      (server.field "variables").isMap = true) :
    serverOfList document = pure (dropSlashes
      (String.ofList
        (Text.replaceBraced (variableText (server.field "variables")) url.toList))) := by
  have hlist : document.field "servers" = .list (server :: others) := by
    rw [Node.field, hservers, Option.getD_some]
  have htext : ((server.field "url").orElse (.text "")).display = url := by
    rw [Node.field, hurl, Option.getD_some, Node.orElse]
    split_ifs with htruthy
    · rfl
    · have hempty : url = "" := by simpa [Node.truthy, Scalar.truthy] using htruthy
      rw [hempty]
      rfl
  have hmap : ((server.field "variables").orElse (.map [])).isMap = true := by
    rw [Node.orElse]
    split_ifs with htruthy
    · exact hvalues htruthy
    · rfl
  simp only [serverOfList, hlist, firstServer_list hurl, pure_bind, htext, hmap,
    variableText_orElse]
  rfl

/-- Only slashes at the end are dropped, and none is left there. -/
theorem dropSlashes_spec (s : List Char) :
    (∃ slashes, s = (dropSlashes (String.ofList s)).toList ++ List.replicate slashes '/') ∧
      (dropSlashes (String.ofList s)).toList.getLast? ≠ some '/' := by
  rw [dropSlashes, String.toList_ofList, String.toList_ofList]
  refine ⟨Text.exists_dropTail_append '/' s, fun hlast => ?_⟩
  cases Text.getLast?_dropTail hlast

end Address

/-- The address of the first server of a document has in it, part by part of the url, what the part
is filled with, and no slash at its end. -/
theorem serverOf_written {ctx : Context} {server : Node} {others : List Node} {url : String}
    {parts : List Part} (hdialect : ctx.dialect = .v3)
    (hservers : ctx.document.get? "servers" = some (.list (server :: others)))
    (hurl : server.get? "url" = some (.text url))
    (hvalues : (server.field "variables").truthy = true →
      (server.field "variables").isMap = true)
    (hparts : ∀ part ∈ parts, part.IsPlain) (hwritten : url.toList = parts.flatMap Part.written) :
    ∃ texts address slashes,
      List.Forall₂ (Part.Filled (server.field "variables")) parts texts ∧
      serverOf ctx = pure address ∧
      texts.flatten = address.toList ++ List.replicate slashes '/' ∧
      address.toList.getLast? ≠ some '/' := by
  have haddress := serverOfList_eq hservers hurl hvalues
  rw [hwritten, replaceBraced_written hparts] at haddress
  obtain ⟨⟨slashes, hslashes⟩, hlast⟩ :=
    dropSlashes_spec (parts.map (Part.filling (server.field "variables"))).flatten
  rw [serverOf, hdialect]
  exact ⟨_, _, slashes, forall₂_filled _ parts, haddress, hslashes, hlast⟩

/-- A url with three variables: the default of the first looks like the second one, the default of
the second is a number, and the third has none. -/
def gateway : Node :=
  .record [("url", .text "https://\x7bhost\x7d:\x7bport\x7d/\x7bbase\x7d//"),
    ("variables", .record [("host", .record [("default", .text "\x7bport\x7d.example")]),
      ("port", .record [("default", .int 8443)]), ("base", .record [])])]

/-- The parts of the url of the gateway. -/
def gatewayParts : List Part :=
  [.text "https://".toList, .place "host".toList, .text ":".toList, .place "port".toList,
    .text "/".toList, .place "base".toList, .text "//".toList]

/-- A document whose first server is the gateway. -/
def gatewayContext : Context :=
  ⟨.record [("openapi", .text "3.0.0"), ("servers", .list [gateway])], .v3, []⟩

/-- The address of the gateway keeps the place in the default of its first variable, and that of its
last variable. -/
theorem serverOf_written_gateway :
    let address := "https://\x7bport\x7d.example:8443/\x7bbase\x7d"
    (∀ part ∈ gatewayParts, part.IsPlain) ∧ serverOf gatewayContext = pure address ∧
      ∃ texts slashes, List.Forall₂ (Part.Filled (gateway.field "variables")) gatewayParts texts ∧
        texts.flatten = address.toList ++ List.replicate slashes '/' := by
  intro address
  have hparts : ∀ part ∈ gatewayParts, part.IsPlain := by decide
  have hurl : "https://\x7bhost\x7d:\x7bport\x7d/\x7bbase\x7d//".toList =
      gatewayParts.flatMap Part.written := by decide
  have hserver : serverOf gatewayContext = pure address := by
    have hlist := @serverOfList_eq gatewayContext.document gateway [] _ rfl rfl fun _ => rfl
    rw [hurl, replaceBraced_written hparts] at hlist
    exact hlist
  obtain ⟨texts, found, slashes, hfilled, hfound, hflatten, -⟩ :=
    @serverOf_written gatewayContext gateway [] _ _ rfl rfl rfl (fun _ => rfl) hparts hurl
  obtain rfl : found = address :=
    Except.ok.inj (congrArg Report.outcome (hfound.symm.trans hserver))
  exact ⟨hparts, hserver, texts, slashes, hfilled, hflatten⟩

end Client

end ApiModel
