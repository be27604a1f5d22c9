import StreamSql.Config.Url
import StreamSql.Proofs.Documents.Reading
import StreamSql.Proofs.Texts.Cuts

/-!
# URLs of configurations

A URL is cut at the first `://` and at the last colon. The name of a protocol has no colon and a
port is digits alone, so these are the separators that `baseUrl` puts, whatever stands in the host
between them. Main result: a URL tells where a valid configuration points, and nothing else.
-/
namespace StreamSql

section Parts

/-- Digits have no sign in front of them. -/
theorem portOfText?_of_digits {s : String} (hne : s.toList ≠ [])
    (hdigits : ∀ c ∈ s.toList, c.isDigit) :
    portOfText? s =
      if Nat.ofDigitChars 10 s.toList 0 < UInt16.size then
        some (.ofNat (Nat.ofDigitChars 10 s.toList 0))
      else none := by
  unfold portOfText?
  cases hs : s.toList with
  | nil => exact absurd hs hne
  | cons c cs =>
    rw [hs] at hdigits
    have hsign : c ≠ '+' := by
      rintro rfl
      exact absurd (hdigits _ List.mem_cons_self) (by decide)
    have hall : (c :: cs).all Char.isDigit := List.all_eq_true.2 hdigits
    simp [hsign, hall]

theorem portOfText?_toString (port : UInt16) : portOfText? (toString port.toNat) = some port := by
  have hlist : (toString port.toNat).toList = Nat.toDigits 10 port.toNat := by
    rw [Nat.toString_eq_repr, Nat.toList_repr]
  have hne : (toString port.toNat).toList ≠ [] := hlist ▸ Nat.toDigits_ne_nil
  have hdigits : ∀ c ∈ (toString port.toNat).toList, c.isDigit :=
    hlist ▸ fun c => Nat.isDigit_of_mem_toDigits (by decide) (by decide)
  rw [portOfText?_of_digits hne hdigits, Text.ofDigitChars_toString, if_pos port.toNat_lt,
    UInt16.ofNat_toNat]

theorem Protocol.ofText_of_map_toLower {s : String} {p : Protocol}
    (h : s.toList.map Char.toLower = (Keyword.token p).toList) : Protocol.ofText s = .ok p := by
  have hname : s.map Char.toLower = Keyword.token p :=
    String.toList_injective (String.toList_map.trans h)
  rw [Protocol.ofText, hname, Keyword.ofToken?_eq_some_iff.mpr rfl]

theorem Protocol.ofText_token (p : Protocol) : Protocol.ofText (Keyword.token p) = .ok p :=
  Protocol.ofText_of_map_toLower (by cases p <;> decide)

theorem Protocol.not_mem_token (p : Protocol) : ':' ∉ (Keyword.token p).toList := by
  cases p <;> decide

end Parts

namespace Config

/-- The port keeps the slashes of the host from being taken for the end of the URL. -/
theorem addressOf?_append (host : String) (port : UInt16) :
    addressOf? (host.toList ++ ':' :: (toString port.toNat).toList) = some (host, port) := by
  have hslash : '/' ∉ (toString port.toNat).toList := Text.not_mem_toString (by decide) _
  have hcolon : ':' ∉ (toString port.toNat).toList := Text.not_mem_toString (by decide) _
  have hport : Text.dropTrailing (· == '/') (toString port.toNat).toList =
      (toString port.toNat).toList :=
    Text.dropTrailing_eq_self fun c hc => by simpa using ne_of_mem_of_not_mem hc hslash
  rw [addressOf?, Text.dropTrailing_append_cons (by decide), hport]
  simp only [Text.splitLast?_append hcolon, String.ofList_toList, portOfText?_toString,
    Option.map_some]

theorem toList_baseUrl (c : Config) :
    c.baseUrl.toList = (Keyword.token c.protocol).toList ++
      ':' :: (['/', '/'] ++ (c.host.toList ++ ':' :: (toString c.port.toNat).toList)) := by
  simp [baseUrl, String.toList_append]

theorem ofUrl_of_parts {url host : String} {name rest : List Char} {port : UInt16}
    {protocol : Protocol} (hcut : Text.splitFirst? [':', '/', '/'] url.toList = some (name, rest))
    (haddress : addressOf? rest = some (host, port))
    (hprotocol : Protocol.ofText (String.ofList name) = .ok protocol)
    (hvalid : validate { host, port, protocol } = .ok ()) :
    ofUrl url = .ok { host, port, protocol } := by
  simp only [ofUrl, hcut, haddress, hprotocol]
  exact Shape.bind_eq_ok_iff.2 ⟨protocol, rfl, Shape.bind_eq_ok_iff.2 ⟨(), hvalid, rfl⟩⟩

theorem ofUrl_baseUrl_of_validate {c : Config} (h : c.validate = .ok ()) :
    ofUrl c.baseUrl = .ok (pointTo {} c) := by
  have hcut : Text.splitFirst? [':', '/', '/'] c.baseUrl.toList =
      some ((Keyword.token c.protocol).toList,
        c.host.toList ++ ':' :: (toString c.port.toNat).toList) := by
    rw [toList_baseUrl, Text.splitFirst?_append (Protocol.not_mem_token _)]
  have hprotocol : Protocol.ofText (String.ofList (Keyword.token c.protocol).toList) =
      .ok c.protocol := by
    rw [String.ofList_toList, Protocol.ofText_token]
  exact ofUrl_of_parts hcut (addressOf?_append c.host c.port) hprotocol h

/-- What is read from a URL is valid, and nothing in it but the address differs from the
defaults. -/
theorem validate_of_ofUrl {url : String} {c : Config} (h : ofUrl url = .ok c) :
    c.validate = .ok () ∧ pointTo {} c = c := by
  unfold ofUrl at h
  split at h
  · cases h
  · split at h
    · cases h
    · obtain ⟨protocol, -, h⟩ := Shape.bind_eq_ok_iff.1 h
      obtain ⟨⟨⟩, hvalid, h⟩ := Shape.bind_eq_ok_iff.1 h
      obtain rfl := Except.ok.inj h
      exact ⟨hvalid, rfl⟩

/-- A URL tells the host, the port and the protocol of a valid configuration, and what it does not
tell gets its default. So the URL of what was read from any URL reads the same, and valid
configurations that share their URL point at the same place. -/
theorem ofUrl_baseUrl :
    (∀ c : Config, c.validate = .ok () →
      ofUrl c.baseUrl = .ok { host := c.host, port := c.port, protocol := c.protocol }) ∧
    (∀ (url : String) (c : Config), ofUrl url = .ok c → ofUrl c.baseUrl = .ok c) ∧
    (∀ c d : Config, c.validate = .ok () → d.validate = .ok () → c.baseUrl = d.baseUrl →
      c.host = d.host ∧ c.port = d.port ∧ c.protocol = d.protocol) := by
  refine ⟨fun c => ofUrl_baseUrl_of_validate, fun url c h => ?_, fun c d hc hd hurl => ?_⟩
  · obtain ⟨hvalid, hdefaults⟩ := validate_of_ofUrl h
    rw [ofUrl_baseUrl_of_validate hvalid, hdefaults]
  · have hread := ofUrl_baseUrl_of_validate hc
    rw [hurl, ofUrl_baseUrl_of_validate hd] at hread
    injection hread with hsame
    injection hsame with hhost hport hprotocol
    exact ⟨hhost.symm, hport.symm, hprotocol.symm⟩

/-- A host in which all separators stand. -/
def separated : Config where
  host := "a:1://b/ c"
  port := 65535
  protocol := .https
  auth := some ⟨"ada", "secret"⟩

theorem separated_ofUrl_baseUrl :
    (separated.baseUrl = "https://a:1://b/ c:65535" ∧
      ofUrl separated.baseUrl = .ok { host := "a:1://b/ c", port := 65535, protocol := .https }) ∧
    (ofUrl "HTTPS://ksqldb/" = .ok { host := "ksqldb", protocol := .https } ∧
      ofUrl "https://ksqldb:8088" = .ok { host := "ksqldb", protocol := .https }) ∧
    (separated ≠ { separated with auth := none } ∧
      separated.baseUrl = baseUrl { separated with auth := none } ∧
      separated.host = ({ separated with auth := none } : Config).host) := by
  obtain ⟨hread, hagain, hsame⟩ := ofUrl_baseUrl
  have hvalid : separated.validate = .ok () := rfl
  have hcut : Text.splitFirst? [':', '/', '/'] "HTTPS://ksqldb/".toList =
      some ("HTTPS".toList, "ksqldb/".toList) := by decide
  have hurl : ofUrl "HTTPS://ksqldb/" = .ok { host := "ksqldb", protocol := .https } :=
    ofUrl_of_parts hcut (by decide) (Protocol.ofText_of_map_toLower (by decide)) rfl
  exact ⟨⟨rfl, hread _ hvalid⟩, ⟨hurl, hagain _ _ hurl⟩,
    ⟨by decide, rfl, (hsame _ _ hvalid hvalid rfl).1⟩⟩

end Config

end StreamSql
