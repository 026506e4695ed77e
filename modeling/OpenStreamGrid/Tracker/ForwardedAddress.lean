import OpenStreamGrid.Tracker.ConnectionSlots

/-!
# Forwarded addresses

Behind trusted proxies the client's address is read from `X-Forwarded-For`. The
client chooses what the header starts with; each trusted proxy appends the address
it received the request from. Whatever the client sent, the entry of the outermost
proxy stands as many positions from the end as there are trusted proxies.
-/

namespace OpenStreamGrid

/-- The header as the request has it: none, one text, or a text for each line. -/
inductive ForwardedHeader where
  | absent
  | single (value : String)
  | lines (values : List String)

/-- How a proxy adds its entry to a header that is there. -/
inductive AppendForm where
  | text
  | line

/-- An entry of a trusted proxy: it says something, and it is one entry. -/
structure ProxyEntry where
  form : AppendForm
  entry : List Char
  nonempty : trim entry ≠ []
  oneEntry : ',' ∉ entry

namespace ForwardedHeader

/-- `Array.isArray(header) ? header.join(",") : header` -/
def value : ForwardedHeader → Option String
  | absent => none
  | single value => some value
  | lines values => some (",".intercalate values)

/-- The header after a proxy appended its entry. -/
def append (header : ForwardedHeader) (proxy : ProxyEntry) : ForwardedHeader :=
  let entry := String.ofList proxy.entry
  match header, proxy.form with
  | absent, _ => single entry
  | single value, .text => single (value ++ ", " ++ entry)
  | single value, .line => lines [value, entry]
  | lines values, .text => single (", ".intercalate values ++ ", " ++ entry)
  | lines values, .line => lines (values ++ [entry])

/-- The header behind a chain of proxies, the outermost first. -/
def behind (sent : ForwardedHeader) (proxies : List ProxyEntry) : ForwardedHeader :=
  proxies.foldl append sent

end ForwardedHeader

/-- What the entry of a proxy says, its port stripped. -/
def ProxyEntry.address (proxy : ProxyEntry) : List Char := withoutPort (trim proxy.entry)

/-! ## Ports -/

theorem withoutPort_bracketed {address port : List Char} (haddress : address ≠ [])
    (hclose : ']' ∉ address) (hport : port = [] ∨ isPort port = true) :
    withoutPort ('[' :: address ++ ']' :: port) = address := by
  have hne : ∀ ch ∈ address, (ch != ']') = true := by
    intro ch hch
    rw [bne_iff_ne]
    rintro rfl
    exact hclose hch
  have htake : (address ++ ']' :: port).takeWhile (· != ']') = address := by
    rw [List.takeWhile_append_of_pos hne]
    simp
  have hdrop : (address ++ ']' :: port).dropWhile (· != ']') = ']' :: port := by
    rw [List.dropWhile_append_of_pos hne]
    simp
  have hbracketed : bracketed? ('[' :: (address ++ ']' :: port)) = some address := by
    simp only [bracketed?, htake, hdrop]
    rcases hport with rfl | hport
    · simp [haddress]
    · simp [haddress, hport]
  show ((bracketed? ('[' :: (address ++ ']' :: port))).orElse _).getD _ = address
  rw [hbracketed]
  rfl

theorem mem_intercalate {sep ch : Char} {groups : List (List Char)} :
    ch ∈ [sep].intercalate groups → ch = sep ∨ ∃ group ∈ groups, ch ∈ group := by
  induction groups with
  | nil => exact fun h => absurd h List.not_mem_nil
  | cons group groups ih =>
      cases groups with
      | nil => exact fun h => Or.inr ⟨group, List.mem_cons_self, by simpa using h⟩
      | cons next groups =>
          rw [List.intercalate_cons_cons, List.append_assoc]
          intro h
          rcases List.mem_append.mp h with h | h
          · exact Or.inr ⟨group, List.mem_cons_self, h⟩
          · rcases List.mem_cons.mp h with h | h
            · exact Or.inl h
            · rcases ih h with h | ⟨group', hgroup', h⟩
              · exact Or.inl h
              · exact Or.inr ⟨group', List.mem_cons_of_mem _ hgroup', h⟩

theorem mem_isDottedQuad {address : List Char} (h : isDottedQuad address = true) {ch : Char}
    (hch : ch ∈ address) : ch = '.' ∨ ch.isDigit = true := by
  have hgroups := List.all_eq_true.mp (Bool.and_eq_true_iff.mp h).2
  have hjoined : ['.'].intercalate (address.splitOn '.') = address := List.intercalate_splitOn '.'
  rw [← hjoined] at hch
  rcases mem_intercalate hch with hdot | ⟨group, hgroup, hmem⟩
  · exact Or.inl hdot
  · have hdigits := (Bool.and_eq_true_iff.mp (hgroups group hgroup)).1
    exact Or.inr (List.all_eq_true.mp (Bool.and_eq_true_iff.mp hdigits).2 ch hmem)

/-- The port of an IPv4 address is stripped. -/
theorem withoutPort_quad {address port : List Char} (haddress : isDottedQuad address = true)
    (hport : isPort (':' :: port) = true) : withoutPort (address ++ ':' :: port) = address := by
  have hmem : ∀ ch, ch ≠ '.' → ch.isDigit = false → ch ∉ address := by
    intro ch hdot hdigit hch
    rcases mem_isDottedQuad haddress hch with h | h
    · exact hdot h
    · exact absurd (hdigit.symm.trans h) (by decide)
  have hne : ∀ ch ∈ address, (ch != ':') = true := by
    intro ch hch
    rw [bne_iff_ne]
    rintro rfl
    exact hmem ':' (by decide) (by decide) hch
  have htake : (address ++ ':' :: port).takeWhile (· != ':') = address := by
    rw [List.takeWhile_append_of_pos hne]
    simp
  have hdrop : (address ++ ':' :: port).dropWhile (· != ':') = ':' :: port := by
    rw [List.dropWhile_append_of_pos hne]
    simp
  have hbracketed : bracketed? (address ++ ':' :: port) = none := by
    cases address with
    | nil => rfl
    | cons first rest =>
        have hfirst : first ≠ '[' := by
          rintro rfl
          exact hmem '[' (by decide) (by decide) List.mem_cons_self
        unfold bracketed?
        split
        · rename_i hopen
          exact absurd (List.cons.inj hopen).1 hfirst
        · rfl
  unfold withoutPort ipv4WithPort?
  rw [hbracketed]
  simp [htake, hdrop, haddress, hport]

theorem bracketed?_ne_nil {hop address : List Char} (h : bracketed? hop = some address) :
    address ≠ [] := by
  unfold bracketed? at h
  split at h
  · dsimp only at h
    split at h
    · split_ifs at h with hbrackets
      rintro rfl
      rw [Option.some.inj h] at hbrackets
      exact absurd (Bool.and_eq_true_iff.mp hbrackets).1 (by decide)
    · exact absurd h (by simp)
  · exact absurd h (by simp)

theorem ipv4WithPort?_ne_nil {hop address : List Char} (h : ipv4WithPort? hop = some address) :
    address ≠ [] := by
  unfold ipv4WithPort? at h
  dsimp only at h
  split_ifs at h with hquad
  rintro rfl
  rw [Option.some.inj h] at hquad
  exact absurd (Bool.and_eq_true_iff.mp hquad).1 (by decide)

/-- Stripping a port leaves something, so no entry is dropped for it. -/
theorem withoutPort_ne_nil {hop : List Char} (h : hop ≠ []) : withoutPort hop ≠ [] := by
  unfold withoutPort
  cases hbracketed : bracketed? hop with
  | some address => exact bracketed?_ne_nil hbracketed
  | none =>
      show (ipv4WithPort? hop).getD hop ≠ []
      cases hquad : ipv4WithPort? hop with
      | some address => exact ipv4WithPort?_ne_nil hquad
      | none => exact h

/-! ## The entries of a header -/

/-- The addresses `clientAddress` finds in a text. -/
def forwardedHops (text : List Char) : List (List Char) :=
  ((text.splitOn ',').map fun hop => withoutPort (trim hop)).filter (· ≠ [])

theorem forwardedHops_nil : forwardedHops [] = [] := by decide

theorem forwardedHops_append (left right : List Char) :
    forwardedHops (left ++ ',' :: right) = forwardedHops left ++ forwardedHops right := by
  unfold forwardedHops
  rw [List.splitOn_append_cons_self, List.map_append, List.filter_append]

theorem forwardedHops_space (text : List Char) :
    forwardedHops (' ' :: text) = forwardedHops text := by
  unfold forwardedHops
  rw [List.splitOn_cons_eq_if_modifyHead, if_neg (by decide)]
  cases text.splitOn ',' with
  | nil => rfl
  | cons hop hops => rfl

theorem forwardedHops_entry (proxy : ProxyEntry) :
    forwardedHops proxy.entry = [proxy.address] := by
  unfold forwardedHops
  rw [List.splitOn_eq_singleton proxy.oneEntry]
  have hne : withoutPort (trim proxy.entry) ≠ [] := withoutPort_ne_nil proxy.nonempty
  simp [hne, ProxyEntry.address]

/-- Lines joined by commas hold the entries of the lines. -/
theorem forwardedHops_intercalate {separator : List Char}
    (hseparator : separator = [','] ∨ separator = [',', ' ']) (lines : List (List Char)) :
    forwardedHops (separator.intercalate lines) = lines.flatMap forwardedHops := by
  induction lines with
  | nil => exact forwardedHops_nil
  | cons line lines ih =>
      cases lines with
      | nil => simp
      | cons next lines =>
          rw [List.intercalate_cons_cons, List.append_assoc, List.flatMap_cons, ← ih]
          rcases hseparator with rfl | rfl
          · exact forwardedHops_append _ _
          · apply (forwardedHops_append _ _).trans
            exact congrArg (forwardedHops line ++ ·) (forwardedHops_space _)

namespace ForwardedHeader

def hops (header : ForwardedHeader) : List (List Char) :=
  forwardedHops (header.value.getD "").toList

theorem hops_lines (values : List String) :
    (lines values).hops = (values.map String.toList).flatMap forwardedHops := by
  show forwardedHops (",".intercalate values).toList = _
  rw [String.toList_intercalate]
  exact forwardedHops_intercalate (Or.inl rfl) _

/-- A proxy adds its address behind those that are there. -/
theorem hops_append (header : ForwardedHeader) (proxy : ProxyEntry) :
    (header.append proxy).hops = header.hops ++ [proxy.address] := by
  have hentry : forwardedHops (String.ofList proxy.entry).toList = [proxy.address] := by
    rw [String.toList_ofList]
    exact forwardedHops_entry proxy
  have htext : ∀ value : String, (single (value ++ ", " ++ String.ofList proxy.entry)).hops
      = forwardedHops value.toList ++ [proxy.address] := by
    intro value
    show forwardedHops (value ++ ", " ++ String.ofList proxy.entry).toList = _
    rw [String.toList_append, String.toList_append, List.append_assoc]
    show forwardedHops (value.toList ++ ',' :: ' ' :: (String.ofList proxy.entry).toList) = _
    rw [forwardedHops_append, forwardedHops_space, hentry]
  unfold append
  cases header with
  | absent =>
      show forwardedHops (String.ofList proxy.entry).toList = forwardedHops [] ++ _
      rw [hentry, forwardedHops_nil]
      rfl
  | single value =>
      cases proxy.form with
      | text => exact htext value
      | line =>
          show (lines [value, String.ofList proxy.entry]).hops = forwardedHops value.toList ++ _
          rw [hops_lines, ← hentry]
          simp
  | lines values =>
      rw [hops_lines]
      cases proxy.form with
      | text =>
          show (single (", ".intercalate values ++ ", " ++ String.ofList proxy.entry)).hops = _
          rw [htext, String.toList_intercalate]
          show forwardedHops ([',', ' '].intercalate _) ++ _ = _
          rw [forwardedHops_intercalate (Or.inr rfl)]
      | line =>
          show (lines (values ++ [String.ofList proxy.entry])).hops = _
          rw [hops_lines, List.map_append, List.flatMap_append, ← hentry]
          simp

theorem hops_behind (sent : ForwardedHeader) (proxies : List ProxyEntry) :
    (sent.behind proxies).hops = sent.hops ++ proxies.map ProxyEntry.address := by
  induction proxies generalizing sent with
  | nil => simp [behind]
  | cons proxy proxies ih =>
      show ((sent.append proxy).behind proxies).hops = _
      rw [ih, hops_append, List.append_assoc]
      rfl

end ForwardedHeader

/-- **A client cannot forge its address.** Behind trusted proxies it is the entry of the
outermost one, whatever header the client sent. -/
theorem clientAddress_behind (request : UpgradeRequest) (sent : ForwardedHeader)
    (outermost : ProxyEntry) (inner : List ProxyEntry) :
    clientAddress { request with forwardedFor := (sent.behind (outermost :: inner)).value }
      (inner.length + 1) = String.ofList outermost.address := by
  have hhops : (((((sent.behind (outermost :: inner)).value.getD "").toList.splitOn ',').map
      fun hop => withoutPort (trim hop)).filter (· ≠ []))
      = sent.hops ++ outermost.address :: inner.map ProxyEntry.address :=
    sent.hops_behind (outermost :: inner)
  have hlength : (sent.hops ++ outermost.address :: inner.map ProxyEntry.address).length
      = sent.hops.length + (inner.length + 1) := by simp
  unfold clientAddress
  rw [if_neg (Nat.succ_ne_zero _)]
  dsimp only
  rw [hhops, hlength, if_pos (Nat.le_add_left _ _), Nat.add_sub_cancel,
    List.getElem?_append_right le_rfl, Nat.sub_self]
  rfl

/-! ### Two proxies -/

def outerProxy : ProxyEntry where
  form := .line
  entry := "203.0.113.7:4711".toList
  nonempty := by decide
  oneEntry := by decide

def innerProxy : ProxyEntry where
  form := .text
  entry := "10.0.0.2".toList
  nonempty := by decide
  oneEntry := by decide

/-- The client sends two lines with three addresses. -/
def forgedHeader : ForwardedHeader := .lines ["198.51.100.1", "198.51.100.2, [2001:db8::1]:80"]

def forgedRequest : UpgradeRequest where
  pathname := "/ws"
  origin := none
  authenticated := true
  forwardedFor := forgedHeader.value
  remoteAddress := some ⟨"10.0.0.1", by decide⟩

theorem clientAddress_behind_twoProxies :
    clientAddress { forgedRequest with
      forwardedFor := (forgedHeader.behind [outerProxy, innerProxy]).value } 2 = "203.0.113.7" := by
  have haddress : String.ofList outerProxy.address = "203.0.113.7" := by decide +kernel
  rw [← haddress]
  exact clientAddress_behind forgedRequest forgedHeader outerProxy [innerProxy]

end OpenStreamGrid
