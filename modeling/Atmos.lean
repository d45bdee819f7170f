import Atmos.ByteText
import Atmos.FixedMemory
import Atmos.PercentEncoding
import Atmos.Constants
import Atmos.RestClient
import Atmos.NormalizeWhitespace
import Atmos.CanonicalRequest
import Atmos.CanonicalInjectivity
import Atmos.CanonicalPresentation
import Atmos.MetadataHeaders
import Atmos.MetadataRoundTrip
import Atmos.AclHeaders
import Atmos.AclRoundTrip
import Atmos.AclStaleness
import Atmos.FilterChain
import Atmos.Digests
import Atmos.ChecksumStream
import Atmos.Requests
import Atmos.ClientOperations
import Atmos.ConfiguredHeaders
import Atmos.SignatureCoverage
import Atmos.RequestReissue
import Atmos.ShareableUrl
import Atmos.ObjectAddressing
import Atmos.RelativePaths
import Atmos.FieldLimits
import Atmos.FilledArrays
import Atmos.ResponseArrays
import Atmos.ResponseFields
import Atmos.RequestBuilders
import Atmos.LastWrite
import Atmos.SystemMetadata
import Atmos.XmlTree
import Atmos.ObjectListing
import Atmos.ListableMetadata
import Atmos.ListingAgreement
import Atmos.ResponseBodies
import Atmos.ResponseFilters
import Atmos.WriteChecksums
import Atmos.AbortedWrites
import Atmos.ChecksumVerification
import Atmos.UnparsedFailures
import Atmos.SetAclResponses
import Atmos.MetadataTexts
import Atmos.ResponseTexts
import Atmos.Utf8Mode
import Atmos.CivilTime
import Atmos.FormattedText
import Atmos.XmlBinding
import Atmos.PolicyXml
import Atmos.MemberRoundTrip
import Atmos.PolicyRoundTrip
import Atmos.PolicyStrings
import Atmos.WhitespaceRuns
import Atmos.CanonicalLengths
import Atmos.ObjectRanges
import Atmos.ListableTags
import Atmos.ObjectIdLocations
import Atmos.CountedMetadata
import Atmos.FileChecksums
import Atmos.ErrorFiles
import Atmos.OptionalMembers
import Atmos.TimestampBuffers
import Atmos.ListedTags
import Atmos.BindingGenerator
import Atmos.GrowingStrings
import Atmos.GeneratedStructs
import Atmos.PolicyStructs
import Atmos.StructDestructors
import Atmos.CursorPaging
import Atmos.ListingPages
import Atmos.SignatureVerification
import Atmos.ListingLookups
import Atmos.BlockLedger
import Atmos.ResourceHandles
import Atmos.ResponseAllocation
import Atmos.ResponseMemory
import Atmos.CheckedAppends
import Atmos.UploadSessions
import Atmos.UrlVerification
