import NetfabricBgp.RibFiles

/-!
Advertisements as documents. All fields are read back but the type of the message, which is
written as the name of its variant and read by a conversion that knows other names. Every
type is read back as the unknown one, and without an error. How the floating point number of
the timestamp is printed and parsed lies outside this repository.
-/
namespace NetfabricBgp.AdvertisementCodecs

open Routes Advertisements JsonCodecs RibFiles

section Codecs

def announcementCodec : Codec Announcement :=
  (Codec.object (.cons "next_hop" Codec.string (.one "prefixes" Codec.string.list))).imap
    (fun (nextHop, prefixes) => ⟨nextHop, prefixes⟩)
    (fun announcement => (announcement.nextHop, announcement.prefixes))

def advertisementTypeCodec : Codec AdvertisementType :=
  Codec.string.imap AdvertisementType.ofString AdvertisementType.variant

/-- The fields that may be missing from an object. -/
def optionalFields : List String :=
  ["path", "community", "origin", "announcements", "raw", "withdrawals"]

variable (timestampCodec : Codec UInt64)

def advertisementCodec : Codec Advertisement :=
  ((Codec.object
    (.cons "timestamp" timestampCodec
      (.cons "peer" Codec.string
        (.cons "peer_asn" Codec.string
          (.cons "id" Codec.string
            (.cons "host" Codec.string
              (.cons "msg_type" advertisementTypeCodec
                (.cons "path" pathElementCodec.list.option
                  (.cons "community" asnCodec.list.list.option
                    (.cons "origin" Codec.string.option
                      (.cons "announcements" announcementCodec.list.option
                        (.cons "raw" Codec.string.option
                          (.one "withdrawals" Codec.string.list.option))))))))))))).nullable
      optionalFields).imap
    (fun (timestamp, peer, peerAsn, id, host, msgType, path, community, origin, announcements,
        raw, withdrawals) =>
      ⟨timestamp, peer, peerAsn, id, host, msgType, path, community, origin, announcements, raw,
        withdrawals⟩)
    (fun ad => (ad.timestamp, ad.peer, ad.peerAsn, ad.id, ad.host, ad.msgType, ad.path,
      ad.community, ad.origin, ad.announcements, ad.raw, ad.withdrawals))

end Codecs

section Reading

theorem reads_advertisementType (msgType : AdvertisementType) :
    advertisementTypeCodec.Reads msgType .Unknown := by
  have hreads : advertisementTypeCodec.Reads msgType
      (AdvertisementType.ofString msgType.variant) :=
    reads_imap (roundTrips_string _)
  rwa [AdvertisementType.ofString_variant] at hreads

theorem roundTrips_announcement (announcement : Announcement) :
    announcementCodec.RoundTrips announcement := by
  refine roundTrips_imap (roundTrips_object ?_ ?_) rfl
  · show ["next_hop", "prefixes"].Nodup
    decide
  · apply roundTrips_cons "next_hop" (roundTrips_string announcement.nextHop)
    apply roundTrips_one "prefixes"
    exact roundTrips_list (fun pfx _ => roundTrips_string pfx)

/-- No list and no text is written as `null`. -/
theorem roundTrips_optional_list {α : Type} {c : Codec α} (h : ∀ a, c.RoundTrips a)
    (o : Option (List α)) : c.list.option.RoundTrips o :=
  roundTrips_option (fun _ _ => roundTrips_list (fun a _ => h a)) (fun _ => Json.noConfusion)

theorem roundTrips_optional_string (o : Option String) : Codec.string.option.RoundTrips o :=
  roundTrips_option (fun text _ => roundTrips_string text) (fun _ => Json.noConfusion)

/-- An advertisement is read back with the unknown type and all its other fields. -/
theorem reads_advertisement {timestampCodec : Codec UInt64} {ad : Advertisement}
    (h : timestampCodec.RoundTrips ad.timestamp) :
    (advertisementCodec timestampCodec).Reads ad { ad with msgType := .Unknown } := by
  have hasns : ∀ asns : List UInt64, asnCodec.list.RoundTrips asns :=
    fun _ => roundTrips_list (fun asn _ => roundTrips_asn asn)
  refine reads_imap (reads_nullable ?_ (reads_object ?_ ?_))
    (a := (ad.timestamp, ad.peer, ad.peerAsn, ad.id, ad.host, AdvertisementType.Unknown, ad.path,
      ad.community, ad.origin, ad.announcements, ad.raw, ad.withdrawals))
  · show optionalFields ⊆ ["timestamp", "peer", "peer_asn", "id", "host", "msg_type", "path",
      "community", "origin", "announcements", "raw", "withdrawals"]
    decide
  · show ["timestamp", "peer", "peer_asn", "id", "host", "msg_type", "path", "community",
      "origin", "announcements", "raw", "withdrawals"].Nodup
    decide
  · apply reads_cons "timestamp" h
    apply reads_cons "peer" (roundTrips_string ad.peer)
    apply reads_cons "peer_asn" (roundTrips_string ad.peerAsn)
    apply reads_cons "id" (roundTrips_string ad.id)
    apply reads_cons "host" (roundTrips_string ad.host)
    apply reads_cons "msg_type" (reads_advertisementType ad.msgType)
    apply reads_cons "path" (roundTrips_optional_list roundTrips_pathElement ad.path)
    apply reads_cons "community" (roundTrips_optional_list hasns ad.community)
    apply reads_cons "origin" (roundTrips_optional_string ad.origin)
    apply reads_cons "announcements"
      (roundTrips_optional_list roundTrips_announcement ad.announcements)
    apply reads_cons "raw" (roundTrips_optional_string ad.raw)
    exact roundTrips_one "withdrawals" (roundTrips_optional_list roundTrips_string ad.withdrawals)

end Reading

/-- An advertisement is read back as it was written exactly when its type is the unknown one. -/
theorem roundTrips_advertisement_iff {timestampCodec : Codec UInt64} {ad : Advertisement}
    (h : timestampCodec.RoundTrips ad.timestamp) :
    (advertisementCodec timestampCodec).RoundTrips ad ↔ ad.msgType = .Unknown := by
  have hreads : (advertisementCodec timestampCodec).decode
      ((advertisementCodec timestampCodec).encode ad) = some { ad with msgType := .Unknown } :=
    reads_advertisement h
  rw [Codec.RoundTrips, hreads, Option.some.injEq]
  constructor
  · intro heq
    rw [← heq]
  · intro htype
    rw [← htype]

/-- A message of unknown type with a path of an ASN and an AS set, and without some fields. -/
def unknownMessage : Advertisement where
  timestamp := 0
  peer := "10.0.0.1"
  peerAsn := "65001"
  id := "10.0.0.1-1"
  host := "rrc15.ripe.net"
  msgType := .Unknown
  path := some [.ASN 65001, .ASSet [65002, 65003]]
  community := some [[65001, 100], []]
  origin := none
  announcements := some [⟨"10.0.0.1", ["10.0.0.0/8", "11.0.0.0/8"]⟩, ⟨"10.0.0.2", []⟩]
  raw := none
  withdrawals := some []

theorem roundTrips_advertisement_iff_unknownMessage :
    (advertisementCodec asnCodec).RoundTrips unknownMessage :=
  (roundTrips_advertisement_iff (roundTrips_asn 0)).mpr rfl

/-- An update is read back as a message of unknown type. -/
theorem not_roundTrips_update :
    (advertisementCodec asnCodec).decode ((advertisementCodec asnCodec).encode
        (.sample "10.0.0.1" "10.0.0.1" [65001] true false)) =
      some { Advertisement.sample "10.0.0.1" "10.0.0.1" [65001] true false with
        msgType := .Unknown } ∧
      ¬ (advertisementCodec asnCodec).RoundTrips
        (.sample "10.0.0.1" "10.0.0.1" [65001] true false) := by
  have hreads := @reads_advertisement asnCodec
    (.sample "10.0.0.1" "10.0.0.1" [65001] true false) (roundTrips_asn _)
  refine ⟨hreads, ?_⟩
  intro h
  have heq := Option.some.inj (hreads.symm.trans h)
  have htype : AdvertisementType.Unknown = .Update := congrArg Advertisement.msgType heq
  cases htype

end NetfabricBgp.AdvertisementCodecs
