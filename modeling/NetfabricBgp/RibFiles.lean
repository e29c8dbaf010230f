import NetfabricBgp.Advertisements
import NetfabricBgp.JsonCodecs
import NetfabricBgp.Ribs

/-!
The RIB as a file. A file holds the stored networks as texts, each with its entry, and the
entry holds the masks as numbers; the map from routers to masks is not in the file. Texts of
networks and addresses, and the text of a whole document, are printed and parsed outside
this repository.
-/
namespace NetfabricBgp.RibFiles

open Addresses NetworkTables Routes RouterMasks RibEntries Ribs Advertisements JsonCodecs

/-- Parsing and printing of networks, without truncation, and of documents. -/
structure FileForms extends TextForms where
  fromStr : String → Option IpNetwork
  toWriterPretty : Json → String
  fromReader : String → Option Json

section Codecs

def routerMaskCodec : Codec RouterMask :=
  (Codec.unsigned 64).imap RouterMask.mk RouterMask.bits

def asnCodec : Codec UInt64 := (Codec.unsigned 64).imap UInt64.ofBitVec UInt64.toBitVec

/-- A number is a plain ASN, an array of numbers is a set of them. -/
def pathElementCodec : Codec PathElement :=
  (asnCodec.either asnCodec.list).imap (Sum.elim .ASN .ASSet) (fun
    | .ASN asn => .inl asn
    | .ASSet asns => .inr asns)

variable (forms : FileForms)

def ipAddrCodec : Codec IpAddr := Codec.text forms.addrToString forms.parse

def ipNetworkCodec : Codec IpNetwork := Codec.text forms.networkToString forms.fromStr

def routeCodec : Codec Route :=
  (Codec.object
    (.cons "peer" (ipAddrCodec forms)
      (.cons "prefix" (ipNetworkCodec forms)
        (.cons "next_hop" Codec.string
          (.one "as_path" pathElementCodec.list))))).imap
    (fun (peer, pfx, nextHop, asPath) => ⟨peer, pfx, nextHop, asPath⟩)
    (fun route => (route.peer, route.pfx, route.nextHop, route.asPath))

def bgpRibEntryCodec : Codec BgpRibEntry :=
  (Codec.object (.one "routes" (routerMaskCodec.pair (routeCodec forms)).list)).imap
    BgpRibEntry.mk BgpRibEntry.routes

def routesCodec : Codec (List (String × BgpRibEntry)) :=
  (Codec.string.pair (bgpRibEntryCodec forms)).list

end Codecs

section Files
variable (forms : FileForms)

/-- The routes of a file, in the order of an iteration over the table. -/
def exportedRoutes {table : IpNetworkTable BgpRibEntry} (iteration : table.Iteration) :
    List (String × BgpRibEntry) :=
  iteration.list.entries.map (fun entry => (forms.networkToString entry.1, entry.2))

/-- The text that is written to the file. -/
def exportToFile (self : BgpRib) (iteration : self.treebitmap.Iteration) : String :=
  forms.toWriterPretty ((routesCodec forms).encode (exportedRoutes forms iteration))

/-- An entry whose network does not parse is skipped. -/
def importRoute (rib : BgpRib) (route : String × BgpRibEntry) : BgpRib :=
  match forms.fromStr route.1 with
  | some network => { rib with treebitmap := rib.treebitmap.insert network route.2 }
  | none => rib

/-- The RIB read from the text of a file; the source panics on a text that is none. -/
def importFromFile (text : String) : Option BgpRib := do
  let doc ← forms.fromReader text
  let routes ← (routesCodec forms).decode doc
  some (routes.foldl (importRoute forms) BgpRib.new)

/-- What is printed is parsed back: every stored network, the addresses and networks of every stored
route, and the document of the routes. -/
structure ReadsBack (rib : BgpRib) (iteration : rib.treebitmap.Iteration) : Prop where
  network : ∀ network, (rib.treebitmap.exactMatch network).isSome →
    forms.fromStr (forms.networkToString network) = some network
  peer : ∀ network, ∀ route ∈ rib.stored network,
    forms.parse (forms.addrToString route.peer) = some route.peer
  pfx : ∀ network, ∀ route ∈ rib.stored network,
    forms.fromStr (forms.networkToString route.pfx) = some route.pfx
  document :
    forms.fromReader (forms.toWriterPretty
        ((routesCodec forms).encode (exportedRoutes forms iteration))) =
      some ((routesCodec forms).encode (exportedRoutes forms iteration))

end Files

/-- The file of a RIB in which the first router stores one route. -/
def sampleDocument : Json :=
  .array [.array [.string "10.0.0.0/8", .object [("routes", .array [.array [.number 1, .object
    [("peer", .string "10.0.0.1"), ("prefix", .string "10.0.0.0/8"),
      ("next_hop", .string "10.0.0.1"), ("as_path", .array [.number 65001])]]])]]]

def sampleText : String :=
  "[
  [
    \"10.0.0.0/8\",
    \x7b
      \"routes\": [
        [
          1,
          \x7b
            \"peer\": \"10.0.0.1\",
            \"prefix\": \"10.0.0.0/8\",
            \"next_hop\": \"10.0.0.1\",
            \"as_path\": [
              65001
            ]
          \x7d
        ]
      ]
    \x7d
  ]
]"

section Printing

def indent (depth : ℕ) : List Char := List.replicate (2 * depth) ' '

/-- Items on lines of their own between two brackets. -/
def enclose (first last : Char) (depth : ℕ) : List (List Char) → List Char
  | [] => [first, last]
  | item :: rest =>
    first :: '\n' :: indent (depth + 1) ++ item ++
      rest.flatMap (fun item => ',' :: '\n' :: indent (depth + 1) ++ item) ++
        '\n' :: indent depth ++ [last]

/-- A text in which nothing has to be escaped. -/
def quote (text : String) : List Char := '"' :: text.toList ++ ['"']

mutual

/-- The pretty printer of documents, at a depth of nesting. -/
def pretty (depth : ℕ) : Json → List Char
  | .null => "null".toList
  | .bool value => (toString value).toList
  | .number value => (toString value).toList
  | .string text => quote text
  | .array items => enclose '[' ']' depth (prettyItems (depth + 1) items)
  | .object members => enclose '\x7b' '\x7d' depth (prettyMembers (depth + 1) members)

def prettyItems (depth : ℕ) : List Json → List (List Char)
  | [] => []
  | item :: rest => pretty depth item :: prettyItems depth rest

def prettyMembers (depth : ℕ) : List (String × Json) → List (List Char)
  | [] => []
  | (name, value) :: rest =>
    (quote name ++ ": ".toList ++ pretty depth value) :: prettyMembers depth rest

end

set_option maxRecDepth 10000 in
theorem pretty_sampleDocument : String.ofList (pretty 0 sampleDocument) = sampleText := rfl

end Printing

/-- The forms of this file, for concrete runs. -/
def FileForms.sample : FileForms where
  toTextForms := TextForms.sample
  fromStr := fun s => if s = "10.0.0.0/8" then some (.V4 (.around 0x0A000000#32 8)) else none
  toWriterPretty := fun doc => String.ofList (pretty 0 doc)
  fromReader := fun s => if s = sampleText then some sampleDocument else none

section RoundTrips
variable {forms : FileForms}

theorem roundTrips_routerMask (mask : RouterMask) : routerMaskCodec.RoundTrips mask :=
  roundTrips_imap (roundTrips_unsigned mask.bits) rfl

theorem roundTrips_asn (asn : UInt64) : asnCodec.RoundTrips asn :=
  roundTrips_imap (roundTrips_unsigned asn.toBitVec) rfl

/-- A set is never taken for a plain ASN: it is written as an array. -/
theorem roundTrips_pathElement (element : PathElement) : pathElementCodec.RoundTrips element := by
  cases element with
  | ASN asn => exact roundTrips_imap (roundTrips_inl (roundTrips_asn asn)) rfl
  | ASSet asns =>
    have hset : asnCodec.list.RoundTrips asns := roundTrips_list (fun asn _ => roundTrips_asn asn)
    exact roundTrips_imap (roundTrips_inr hset rfl) rfl

theorem roundTrips_route {route : Route}
    (hpeer : forms.parse (forms.addrToString route.peer) = some route.peer)
    (hpfx : forms.fromStr (forms.networkToString route.pfx) = some route.pfx) :
    (routeCodec forms).RoundTrips route := by
  have hpath : pathElementCodec.list.RoundTrips route.asPath :=
    roundTrips_list (fun element _ => roundTrips_pathElement element)
  refine roundTrips_imap (roundTrips_object ?_ ?_) rfl
  · show ["peer", "prefix", "next_hop", "as_path"].Nodup
    decide
  · apply roundTrips_cons "peer" (roundTrips_text hpeer)
    apply roundTrips_cons "prefix" (roundTrips_text hpfx)
    apply roundTrips_cons "next_hop" (roundTrips_string route.nextHop)
    exact roundTrips_one "as_path" hpath

theorem roundTrips_bgpRibEntry {entry : BgpRibEntry}
    (h : ∀ route ∈ entry.getAll, (routeCodec forms).RoundTrips route) :
    (bgpRibEntryCodec forms).RoundTrips entry := by
  refine roundTrips_imap (roundTrips_object (List.nodup_singleton "routes") ?_) rfl
  apply roundTrips_one "routes"
  apply roundTrips_list
  intro tuple ht
  exact roundTrips_pair (roundTrips_routerMask tuple.1) (h tuple.2 (List.mem_map_of_mem ht))

variable {rib : BgpRib} {iteration : rib.treebitmap.Iteration}

theorem roundTrips_exportedRoutes (h : ReadsBack forms rib iteration) :
    (routesCodec forms).RoundTrips (exportedRoutes forms iteration) := by
  apply roundTrips_list
  intro route hroute
  obtain ⟨⟨network, entry⟩, hentry, rfl⟩ := List.mem_map.mp hroute
  have hstored : rib.stored network = entry.getAll := by
    rw [BgpRib.stored, (iteration.mem_iff).mp hentry]
  apply roundTrips_pair (roundTrips_string _)
  apply roundTrips_bgpRibEntry
  intro r hr
  rw [← hstored] at hr
  exact roundTrips_route (h.peer network r hr) (h.pfx network r hr)

/-- The loop of the import, over entries whose networks parse back. -/
theorem foldl_importRoute {entries : List (Sigma fun _ : IpNetwork => BgpRibEntry)}
    (h : ∀ entry ∈ entries, forms.fromStr (forms.networkToString entry.1) = some entry.1)
    (rib : BgpRib) :
    (entries.map (fun entry => (forms.networkToString entry.1, entry.2))).foldl
        (importRoute forms) rib =
      { rib with treebitmap := IpNetworkTable.insertAll entries rib.treebitmap } := by
  induction entries generalizing rib with
  | nil => rfl
  | cons entry rest ih =>
    obtain ⟨hentry, hrest⟩ := List.forall_mem_cons.mp h
    have hfirst : importRoute forms rib (forms.networkToString entry.1, entry.2) =
        { rib with treebitmap := rib.treebitmap.insert entry.1 entry.2 } := by
      simp only [importRoute, hentry]
    rw [List.map_cons, List.foldl_cons, hfirst, ih hrest]
    rfl

/-- An exported RIB is imported with its table and with no router registered. -/
theorem importFromFile_exportToFile (h : ReadsBack forms rib iteration) :
    importFromFile forms (exportToFile forms rib iteration) =
      some { BgpRib.new with treebitmap := rib.treebitmap } := by
  have hdecode : (routesCodec forms).decode
      ((routesCodec forms).encode (exportedRoutes forms iteration)) =
        some (exportedRoutes forms iteration) := roundTrips_exportedRoutes h
  have hloop : (exportedRoutes forms iteration).foldl (importRoute forms) BgpRib.new =
      { BgpRib.new with
        treebitmap := IpNetworkTable.insertAll iteration.list.entries ∅ } := by
    apply foldl_importRoute
    intro entry hentry
    apply h.network
    exact Option.isSome_of_eq_some ((iteration.mem_iff).mp hentry)
  rw [IpNetworkTable.insertAll_iteration] at hloop
  simp [importFromFile, exportToFile, h.document, hdecode, hloop]

end RoundTrips

end NetfabricBgp.RibFiles
