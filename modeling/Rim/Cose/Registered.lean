/-!
# Registered numbers

The numbers that the registries of signed objects assign: to algorithms, to header parameters and
to the formats of content.
-/

namespace Rim.Cose

/-- The least numbers and the greatest numbers of the runs of algorithm numbers. -/
def algorithmRuns : List (Int × Int) :=
  [(-65535, -65535), (-260, -257), (-47, -25), (-18, -10), (-8, -3), (0, 7), (10, 15), (24, 26),
   (30, 34)]

def isAlgorithm (n : Int) : Bool := algorithmRuns.any fun r => r.1 ≤ n && n ≤ r.2

/-- Every number below this one is free for private algorithms. -/
def privateAlgorithms : Int := -65536

def headerParameters : List Int :=
  [0, 1, 2, 3, 4, 5, 6, 7, 9, 10, 32, 33, 34, 35, 256, 257]

/-- The numbers and names of content formats. -/
def contentFormats : List (Int × String) :=
  [(0, "TextPlainUtf8"), (16, "CoseEncrypt0"), (17, "CoseMac0"), (18, "CoseSign1"),
   (21, "ImageGif"), (22, "ImageJpeg"), (23, "ImagePng"), (40, "LinkFormat"), (41, "Xml"),
   (42, "OctetStream"), (47, "Exi"), (50, "Json"), (51, "JsonPatchJson"), (52, "MergePatchJson"),
   (60, "Cbor"), (61, "Cwt"), (62, "MultipartCore"), (63, "CborSeq"), (96, "CoseEncrypt"),
   (97, "CoseMac"), (98, "CoseSign"), (101, "CoseKey"), (102, "CoseKeySet"), (110, "SenmlJson"),
   (111, "SensmlJson"), (112, "SenmlCbor"), (113, "SensmlCbor"), (114, "SenmlExi"),
   (115, "SensmlExi"), (256, "CoapGroupJson"), (271, "DotsCbor"), (272, "MissingBlocksCborSeq"),
   (280, "Pkcs7MimeServerGeneratedKey"), (281, "Pkcs7MimeCertsOnly"), (284, "Pkcs8"),
   (285, "Csrattrs"), (286, "Pkcs10"), (287, "PkixCert"), (310, "SenmlXml"), (311, "SensmlXml"),
   (320, "SenmlEtchJson"), (322, "SenmlEtchCbor"), (432, "TdJson"), (10000, "VndOcfCbor"),
   (10001, "Oscore"), (10002, "Javascript"), (11050, "JsonDeflate"), (11060, "CborDeflate"),
   (11542, "VndOmaLwm2mTlv"), (11543, "VndOmaLwm2mJson"), (11544, "VndOmaLwm2mCbor"),
   (20000, "TextCss"), (30000, "ImageSvgXml")]

def formatName? (n : Int) : Option String := (contentFormats.find? (·.1 == n)).map (·.2)

end Rim.Cose
