import Atmos.ByteText

/-!
# Constants

Header names, buffer sizes and texts from `atmos_constants.h`, under the
source's names, and the header names the library takes from the REST client.
-/

namespace Atmos

open ByteText

/-! ## HTTP header names -/

def httpHeaderContentType : CStr := bytes "Content-Type"
def httpHeaderRange : CStr := bytes "Range"
def httpHeaderContentRange : CStr := bytes "Content-Range"
def httpHeaderDate : CStr := bytes "Date"
def httpHeaderLocation : CStr := bytes "Location"

/-! ## Atmos header names -/

def atmosHeaderUid : CStr := bytes "x-emc-uid"
def atmosHeaderSignature : CStr := bytes "x-emc-signature"
def atmosHeaderMeta : CStr := bytes "x-emc-meta"
def atmosHeaderListableMeta : CStr := bytes "x-emc-listable-meta"
def atmosHeaderUtf8 : CStr := bytes "x-emc-utf8"
def atmosHeaderUserAcl : CStr := bytes "x-emc-useracl"
def atmosHeaderGroupAcl : CStr := bytes "x-emc-groupacl"
def atmosHeaderTags : CStr := bytes "x-emc-tags"
def atmosHeaderPath : CStr := bytes "x-emc-path"
def atmosHeaderForce : CStr := bytes "x-emc-force"
def atmosHeaderToken : CStr := bytes "x-emc-token"
def atmosHeaderIncludeMeta : CStr := bytes "x-emc-include-meta"
def atmosHeaderUserTags : CStr := bytes "x-emc-user-tags"
def atmosHeaderSystemTags : CStr := bytes "x-emc-system-tags"
def atmosHeaderLimit : CStr := bytes "x-emc-limit"
def atmosHeaderVersionOid : CStr := bytes "x-emc-version-oid"
def atmosHeaderObjectid : CStr := bytes "x-emc-objectid"
def atmosHeaderPool : CStr := bytes "x-emc-pool"
def atmosHeaderWschecksum : CStr := bytes "x-emc-wschecksum"
def atmosHeaderGenerateChecksum : CStr := bytes "x-emc-generate-checksum"
def atmosHeaderContentChecksum : CStr := bytes "x-emc-content-checksum"
def atmosHeaderSupportUtf8 : CStr := bytes "x-emc-support-utf8"
def atmosHeaderListableTags : CStr := bytes "x-emc-listable-tags"

/-! ## Buffer sizes -/

abbrev atmosUidMax : Nat := 255
abbrev atmosPathMax : Nat := 1024
abbrev atmosMetaValueMax : Nat := 1024
abbrev atmosMetaNameMax : Nat := 255
abbrev atmosMetaCountMax : Nat := 127
abbrev atmosSystemMetaCountMax : Nat := 20
abbrev atmosAclCountMax : Nat := 64
abbrev atmosChecksumMax : Nat := 128
abbrev atmosTokenMax : Nat := 1024
abbrev atmosOidLength : Nat := 65
abbrev atmosSimpleHeaderMax : Nat := 255
abbrev atmosErrorMax : Nat := 1024
abbrev atmosOidLocationPrefixSize : Nat := 14

/-! ## Access control texts -/

def atmosAclPermissionNone : CStr := bytes "NONE"
def atmosAclPermissionRead : CStr := bytes "READ"
def atmosAclPermissionReadwrite : CStr := bytes "WRITE"
def atmosAclPermissionFull : CStr := bytes "FULL_CONTROL"
def atmosAclPermissionReadAcl : CStr := bytes "READ_ACL"
def atmosAclPermissionWriteAcl : CStr := bytes "WRITE_ACL"
def atmosAclPermissionExecute : CStr := bytes "EXECUTE"
def atmosAclGroupOther : CStr := bytes "other"

/-! ## Names of system metadata -/

def atmosSystemMetaAtime : CStr := bytes "atime"
def atmosSystemMetaCtime : CStr := bytes "ctime"
def atmosSystemMetaGid : CStr := bytes "gid"
def atmosSystemMetaItime : CStr := bytes "itime"
def atmosSystemMetaMtime : CStr := bytes "mtime"
def atmosSystemMetaNlink : CStr := bytes "nlink"
def atmosSystemMetaObjectid : CStr := bytes "objectid"
def atmosSystemMetaObjname : CStr := bytes "objname"
def atmosSystemMetaPolicyname : CStr := bytes "policyname"
def atmosSystemMetaSize : CStr := bytes "size"
def atmosSystemMetaType : CStr := bytes "type"
def atmosSystemMetaUid : CStr := bytes "uid"
def atmosSystemMetaWschecksum : CStr := bytes "x-emc-wschecksum"

def atmosSystemMetaNames : List CStr :=
  [bytes "atime", bytes "ctime", bytes "gid", bytes "itime", bytes "mtime",
    bytes "nlink", bytes "objectid", bytes "objname", bytes "policyname",
    bytes "size", bytes "type", bytes "uid", bytes "x-emc-wschecksum"]

def atmosTypeRegular : CStr := bytes "regular"
def atmosTypeDirectory : CStr := bytes "directory"

/-! ## Errors found before sending -/

def atmosErrorApiFtellNotSupported : Int := 601
def atmosErrorApiFtellNotSupportedStr : CStr :=
  bytes ("A file handle was used that does not support ftell() but it is " ++
    "required for wschecksum.")
def atmosErrorApiFseekNotSupported : Int := 602
def atmosErrorApiFseekNotSupportedStr : CStr :=
  bytes ("A file handle was used that does not support fseek() but it is " ++
    "required for wschecksum.")
def atmosErrorApiChecksumFailed : Int := 603
def atmosErrorApiChecksumFailedStr : CStr := bytes "Checksum calculation failed"

end Atmos
