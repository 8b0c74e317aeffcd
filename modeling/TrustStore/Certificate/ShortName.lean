import TrustStore.Certificate.ObjectId

/-!
# Short names of object identifiers

An identifier in a name is shown by a short name if it is registered.  Most are types of attributes,
but extensions and algorithms are registered in the same way.  The tables list identifiers by their
text; an identifier that is not written canonically has no short name.
-/

namespace TrustStore.Certificate

/-- The usual abbreviations of attribute types. -/
def abbreviations : List (String × String) :=
  [("2.5.4.3", "CN"), ("2.5.4.6", "C"), ("2.5.4.7", "L"), ("2.5.4.8", "ST"), ("2.5.4.10", "O"),
   ("2.5.4.11", "OU"), ("0.9.2342.19200300.100.1.25", "DC"), ("1.2.840.113549.1.9.1", "Email")]

def attributeNames : List (String × String) :=
  [("0.9.2342.19200300.100.1.1", "uid"), ("1.2.840.113549.1.9.2", "unstructuredName"),
   ("1.2.840.113549.1.9.7", "challengePassword"),
   ("1.3.6.1.4.1.311.60.2.1.1", "msJurisdictionLocality"),
   ("1.3.6.1.4.1.311.60.2.1.2", "msJurisdictionStateOrProvince"),
   ("1.3.6.1.4.1.311.60.2.1.3", "msJurisdictionCountry"), ("2.5.4.0", "objectClass"),
   ("2.5.4.1", "aliasedEntryName"), ("2.5.4.2", "knowledgeInformation"), ("2.5.4.4", "surname"),
   ("2.5.4.5", "serialNumber"), ("2.5.4.9", "streetAddress"), ("2.5.4.12", "title"),
   ("2.5.4.13", "description"), ("2.5.4.14", "searchGuide"), ("2.5.4.15", "businessCategory"),
   ("2.5.4.16", "postalAddress"), ("2.5.4.17", "postalCode"), ("2.5.4.41", "name"),
   ("2.5.4.42", "givenName"), ("2.5.4.43", "initials"), ("2.5.4.44", "generationQualifier"),
   ("2.5.4.45", "uniqueIdentifier"), ("2.5.4.46", "dnQualifier")]

def extensionNames : List (String × String) :=
  [("2.5.29.14", "subjectKeyIdentifier"), ("2.5.29.15", "keyUsage"),
   ("2.5.29.16", "privateKeyUsagePeriod"), ("2.5.29.17", "subjectAltName"),
   ("2.5.29.18", "issuerAltName"), ("2.5.29.19", "basicConstraints"), ("2.5.29.20", "crlNumber"),
   ("2.5.29.21", "reasonCode"), ("2.5.29.24", "invalidityDate"),
   ("2.5.29.27", "deltaCRLIndicator"), ("2.5.29.28", "issuingDistributionPoint"),
   ("2.5.29.29", "certificateIssuer"), ("2.5.29.30", "nameConstraints"),
   ("2.5.29.31", "crlDistributionPoints"), ("2.5.29.32", "certificatePolicies"),
   ("2.5.29.33", "policyMappings"), ("2.5.29.35", "authorityKeyIdentifier"),
   ("2.5.29.36", "policyConstraints"), ("2.5.29.37", "extendedKeyUsage"),
   ("2.5.29.46", "freshestCRL"), ("2.5.29.54", "inhibitAnyPolicy"),
   ("1.3.6.1.5.5.7.1.1", "authorityInfoAccess"), ("1.3.6.1.5.5.7.1.11", "subjectInfoAccess")]

def algorithmNames : List (String × String) :=
  [("1.2.840.113549.1.1.1", "rsaEncryption"), ("1.2.840.113549.1.1.2", "md2WithRSAEncryption"),
   ("1.2.840.113549.1.1.4", "md5WithRSAEncryption"),
   ("1.2.840.113549.1.1.5", "sha1WithRSAEncryption"),
   ("1.2.840.113549.1.1.11", "sha256WithRSAEncryption"),
   ("1.2.840.113549.1.1.12", "sha384WithRSAEncryption"),
   ("1.2.840.113549.1.1.13", "sha512WithRSAEncryption"),
   ("1.2.840.113549.1.1.14", "sha224WithRSAEncryption"), ("1.2.840.10045.2.1", "id-ecPublicKey"),
   ("1.2.840.10045.3.1.7", "prime256v1"), ("1.2.840.10045.4.3.2", "ecdsa-with-SHA256"),
   ("1.2.840.10045.4.3.3", "ecdsa-with-SHA384"), ("1.2.840.10045.4.3.4", "ecdsa-with-SHA512"),
   ("1.3.101.112", "ed25519"), ("1.3.101.113", "ed448")]

def registeredNames : List (String × String) :=
  abbreviations ++ attributeNames ++ extensionNames ++ algorithmNames

def shortName? (id : ObjectId) : Option String :=
  if id.isCanonical then registeredNames.lookup id.text else none

end TrustStore.Certificate
